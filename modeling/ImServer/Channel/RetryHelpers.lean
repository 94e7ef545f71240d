import ImServer.Channel.ChannelDb
import ImServer.Lib.Retry

/-!
# Helpers that repeat a command

The helpers of `CRedisMgr` (channel/redisMgr.cpp) and `CRedisManager` (login/redis_manager.cpp) do a
command of redis again while the connection breaks, up to three times. Afterwards they test how the
last attempt ended and how often there was another one; a success of the fourth attempt is therefore
reported as a failure.
-/

namespace ImServer

open Login (Text)
open Cache (CacheOp)

inductive RedisOperCode where
  | ok
  | disconn
  | connFail
  | noDate
  | paramExcept
  deriving DecidableEq, Repr

/-- How an attempt ends, with the number that redis answers. -/
structure Attempt where
  code : RedisOperCode
  retValue : Int := 0
  deriving DecidableEq, Repr

def Attempt.isDisconn (attempt : Attempt) : Bool := attempt.code = .disconn

/-- The outcomes of the attempts of each command, however many are made of them. -/
abbrev Attempts := CacheOp → ℕ → Attempt

/-- How often a helper sends its command, and what it returns. -/
structure Report where
  calls : ℕ
  result : Bool
  deriving DecidableEq, Repr

namespace CRedisMgr

variable (conn : Attempts)

/-- `nTick` after the loop. -/
def ticks (op : CacheOp) : ℕ := Retry.last Attempt.isDisconn (conn op) 3 0

/-- The loop and the test behind it, which looks at the last attempt and at the counter. -/
def retried (op : CacheOp) (done : Attempt → Bool) : Report where
  calls := ticks conn op + 1
  result := done (conn op (ticks conn op)) && !decide (3 ≤ ticks conn op)

def isOk (attempt : Attempt) : Bool := attempt.code = .ok

/-- A list without members is refused. -/
def retriedList (op : CacheOp) (members : List Text) : Report :=
  if members = [] then ⟨0, false⟩ else retried conn op isOk

def addMemberToSet (key member : Text) : Report := retried conn (.sadd key member) isOk

def addMemberListToSet (key : Text) (members : List Text) : Report :=
  retriedList conn (.saddList key members) members

def removeMemberFromSet (key member : Text) : Report := retried conn (.srem key member) isOk

def removeMemberListFromSet (key : Text) (members : List Text) : Report :=
  retriedList conn (.sremList key members) members

/-- An element that was not there is not moved. -/
def isMoved (attempt : Attempt) : Bool := isOk attempt && !decide (attempt.retValue < 1)

def moveSetMember (srcKey destKey member : Text) : Report :=
  retried conn (.smove srcKey destKey member) isMoved

def delKey (key : Text) : Report := retried conn (.del key) isOk

def getSetMembers (key : Text) : Report := retried conn (.smembers key) isOk

/-- The form with a list, or the one with a map. -/
def getSortedSetMember (key : Text) (withScores : Bool) : Report :=
  retried conn (.zrange key withScores) isOk

def addMemberToSortedSet (key member : Text) (score : Int) : Report :=
  retried conn (.zadd key member score) isOk

def addMemberListToSortedSet (key : Text) (mapMember : List (Text × Int)) : Report :=
  retried conn (.zaddMap key mapMember) isOk

def removeMemberFromSortedSet (key member : Text) : Report := retried conn (.zrem key member) isOk

def removeMemberListFromSortedSet (key : Text) (members : List Text) : Report :=
  retried conn (.zremList key members) isOk

def getSortedSetMemberSocrt (key member : Text) : Report := retried conn (.zscore key member) isOk

def chnnInfoStatus : Text := CText.bytes "status"

def chnnInfoSpeak : Text := CText.bytes "unspeak"

def getChannelInfo (radioId : Text) : Report :=
  retried conn (.hmget (ChannelDb.channelInfoKey radioId) [chnnInfoStatus, chnnInfoSpeak]) isOk

def setChannelInfo (radioId : Text) (status unspeak : Int) : Report :=
  retried conn (.hmset (ChannelDb.channelInfoKey radioId)
    [(chnnInfoStatus, Cache.decimal status), (chnnInfoSpeak, Cache.decimal unspeak)]) isOk

def setChannelStatus (radioId : Text) (status : Int) : Report :=
  retried conn (.hset (ChannelDb.channelInfoKey radioId) chnnInfoStatus (Cache.decimal status)) isOk

def setChannelSpeak (radioId : Text) (unSpeak : Int) : Report :=
  retried conn (.hset (ChannelDb.channelInfoKey radioId) chnnInfoSpeak (Cache.decimal unSpeak)) isOk

end CRedisMgr

/-- The helpers with their arguments. Each sends one command, again and again if need be. -/
inductive RetryHelper where
  | addMemberToSet (key member : Text)
  | addMemberListToSet (key : Text) (members : List Text)
  | removeMemberFromSet (key member : Text)
  | removeMemberListFromSet (key : Text) (members : List Text)
  | moveSetMember (srcKey destKey member : Text)
  | delKey (key : Text)
  | getSetMembers (key : Text)
  | getSortedSetMember (key : Text) (withScores : Bool)
  | addMemberToSortedSet (key member : Text) (score : Int)
  | addMemberListToSortedSet (key : Text) (mapMember : List (Text × Int))
  | removeMemberFromSortedSet (key member : Text)
  | removeMemberListFromSortedSet (key : Text) (members : List Text)
  | getSortedSetMemberSocrt (key member : Text)
  | getChannelInfo (radioId : Text)
  | setChannelInfo (radioId : Text) (status unspeak : Int)
  | setChannelStatus (radioId : Text) (status : Int)
  | setChannelSpeak (radioId : Text) (unSpeak : Int)

namespace RetryHelper

open CRedisMgr (retried ticks isOk isMoved chnnInfoStatus chnnInfoSpeak)

def report (conn : Attempts) : RetryHelper → Report
  | .addMemberToSet key member => CRedisMgr.addMemberToSet conn key member
  | .addMemberListToSet key members => CRedisMgr.addMemberListToSet conn key members
  | .removeMemberFromSet key member => CRedisMgr.removeMemberFromSet conn key member
  | .removeMemberListFromSet key members => CRedisMgr.removeMemberListFromSet conn key members
  | .moveSetMember srcKey destKey member => CRedisMgr.moveSetMember conn srcKey destKey member
  | .delKey key => CRedisMgr.delKey conn key
  | .getSetMembers key => CRedisMgr.getSetMembers conn key
  | .getSortedSetMember key withScores => CRedisMgr.getSortedSetMember conn key withScores
  | .addMemberToSortedSet key member score => CRedisMgr.addMemberToSortedSet conn key member score
  | .addMemberListToSortedSet key mapMember => CRedisMgr.addMemberListToSortedSet conn key mapMember
  | .removeMemberFromSortedSet key member => CRedisMgr.removeMemberFromSortedSet conn key member
  | .removeMemberListFromSortedSet key members => CRedisMgr.removeMemberListFromSortedSet conn key members
  | .getSortedSetMemberSocrt key member => CRedisMgr.getSortedSetMemberSocrt conn key member
  | .getChannelInfo radioId => CRedisMgr.getChannelInfo conn radioId
  | .setChannelInfo radioId status unspeak => CRedisMgr.setChannelInfo conn radioId status unspeak
  | .setChannelStatus radioId status => CRedisMgr.setChannelStatus conn radioId status
  | .setChannelSpeak radioId unSpeak => CRedisMgr.setChannelSpeak conn radioId unSpeak

/-- The command of a helper. -/
def command : RetryHelper → CacheOp
  | .addMemberToSet key member => .sadd key member
  | .addMemberListToSet key members => .saddList key members
  | .removeMemberFromSet key member => .srem key member
  | .removeMemberListFromSet key members => .sremList key members
  | .moveSetMember srcKey destKey member => .smove srcKey destKey member
  | .delKey key => .del key
  | .getSetMembers key => .smembers key
  | .getSortedSetMember key withScores => .zrange key withScores
  | .addMemberToSortedSet key member score => .zadd key member score
  | .addMemberListToSortedSet key mapMember => .zaddMap key mapMember
  | .removeMemberFromSortedSet key member => .zrem key member
  | .removeMemberListFromSortedSet key members => .zremList key members
  | .getSortedSetMemberSocrt key member => .zscore key member
  | .getChannelInfo radioId =>
    .hmget (ChannelDb.channelInfoKey radioId) [chnnInfoStatus, chnnInfoSpeak]
  | .setChannelInfo radioId status unspeak => .hmset (ChannelDb.channelInfoKey radioId)
    [(chnnInfoStatus, Cache.decimal status), (chnnInfoSpeak, Cache.decimal unspeak)]
  | .setChannelStatus radioId status =>
    .hset (ChannelDb.channelInfoKey radioId) chnnInfoStatus (Cache.decimal status)
  | .setChannelSpeak radioId unSpeak =>
    .hset (ChannelDb.channelInfoKey radioId) chnnInfoSpeak (Cache.decimal unSpeak)

/-- The attempt has done what the helper is for. A move has not if redis answers that there was
nothing to move. -/
def done : RetryHelper → Attempt → Bool
  | .moveSetMember .. => isMoved
  | _ => isOk

/-- A helper that sends nothing: that for a list, if the list is empty. -/
def Refused : RetryHelper → Prop
  | .addMemberListToSet _ members | .removeMemberListFromSet _ members => members = []
  | _ => False

variable (conn : Attempts)

/-- A helper stops after four attempts, and it is successful if the last one was. -/
structure Truthful (helper : RetryHelper) : Prop where
  calls : (helper.report conn).calls ≤ 4
  result : (helper.report conn).result = true ↔
    ∃ last, (helper.report conn).calls = last + 1 ∧ helper.done (conn helper.command last) = true

/-- The connection breaks three times, and then the command is done. -/
def LateSuccess (helper : RetryHelper) : Prop :=
  (∀ n < 3, (conn helper.command n).code = .disconn) ∧
    helper.done (conn helper.command 3) = true

variable {conn}

theorem report_eq (helper : RetryHelper) :
    helper.Refused ∧ helper.report conn = ⟨0, false⟩ ∨
      ¬helper.Refused ∧ helper.report conn = retried conn helper.command helper.done := by
  cases helper with
  | addMemberListToSet key members | removeMemberListFromSet key members =>
    by_cases hmembers : members = []
    · exact .inl ⟨hmembers, if_pos hmembers⟩
    · exact .inr ⟨hmembers, if_neg hmembers⟩
  | _ => exact .inr ⟨not_false, rfl⟩

theorem ticks_eq_three_iff {op : CacheOp} :
    ticks conn op = 3 ↔ ∀ n < 3, (conn op n).code = .disconn := by
  have hiff := @Retry.last_eq_iff _ Attempt.isDisconn (conn op) 3 0
  simp only [Nat.zero_le, Nat.zero_add, forall_const] at hiff
  exact hiff.trans (forall₂_congr fun n _ => decide_eq_true_iff)

/-- Only the success of the fourth attempt is taken for a failure. -/
theorem retry_helpers_truthful_iff (conn : Attempts) (helper : RetryHelper) :
    helper.Truthful conn ↔ helper.Refused ∨ ¬helper.LateSuccess conn := by
  obtain ⟨hrefused, hreport⟩ | ⟨hsent, hreport⟩ := @report_eq conn helper
  · refine iff_of_true ?_ (.inl hrefused)
    constructor
    · rw [hreport]
      decide
    · rw [hreport]
      simp
  · have hticks : ticks conn helper.command ≤ 3 :=
      (@Retry.last_le _ Attempt.isDisconn (conn helper.command) 3 0).trans (Nat.le_of_eq rfl)
    have hresult : (helper.report conn).result = true ↔
        helper.done (conn helper.command (ticks conn helper.command)) = true ∧
          ticks conn helper.command ≠ 3 := by
      rw [hreport, retried, Bool.and_eq_true, Bool.not_eq_true', decide_eq_false_iff_not]
      exact and_congr_right fun _ => not_congr ⟨fun h => Nat.le_antisymm hticks h, Nat.le_of_eq ∘ Eq.symm⟩
    have hlast : (∃ last, (helper.report conn).calls = last + 1 ∧
        helper.done (conn helper.command last) = true) ↔
          helper.done (conn helper.command (ticks conn helper.command)) = true := by
      rw [hreport, retried]
      constructor
      · rintro ⟨last, hcalls, hdone⟩
        rwa [Nat.succ_injective hcalls]
      · exact fun hdone => ⟨_, rfl, hdone⟩
    have hlate : helper.LateSuccess conn ↔ ticks conn helper.command = 3 ∧
        helper.done (conn helper.command (ticks conn helper.command)) = true := by
      rw [LateSuccess, ← ticks_eq_three_iff]
      exact and_congr_right fun heq => by rw [heq]
    rw [or_iff_right hsent, hlate]
    constructor
    · rintro ⟨-, htruth⟩ ⟨hthree, hdone⟩
      exact (hresult.mp (htruth.mpr (hlast.mpr hdone))).2 hthree
    · intro hnot
      refine ⟨?_, ?_⟩
      · rw [hreport]
        exact Nat.succ_le_succ hticks
      · rw [hresult, hlast]
        exact ⟨And.left, fun hdone => ⟨hdone, fun hthree => hnot ⟨hthree, hdone⟩⟩⟩

/-- A key is deleted by the fourth attempt. -/
theorem not_retry_helpers_truthful :
    ¬ ∀ (conn : Attempts) (helper : RetryHelper), helper.Truthful conn := by
  intro h
  have htruth := (h (fun _ n => if n < 3 then ⟨.disconn, 0⟩ else ⟨.ok, 1⟩)
    (.delKey (CText.bytes "k"))).result
  exact absurd (htruth.mpr ⟨3, by decide, by decide⟩) (by decide)

end RetryHelper

end ImServer
