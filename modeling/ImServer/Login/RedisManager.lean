import Mathlib.Data.List.Basic
import ImServer.Lib.CText
import ImServer.Lib.Run

/-!
# The channels of users

The login server keeps, in a redis of its own, the list of the channels of each user and,
for each channel, the sets of its users that are online and that are offline
(login/redis_manager.cpp, data_oper/CachePool.cpp). Keys are cut to 127 bytes.

Commands are atomic; a command that redis refuses has no result. The members of a set are
given to the client library one by one, but a list is given to it as one format text.
-/

namespace ImServer

namespace Login

abbrev Text := List UInt8

/-- `std::map<std::string, int>`: channels with the settings of the user. -/
abbrev ChannelMap := List (Text × Nat)

namespace ChannelMap

/-- Insert a channel at its place; `replace` says what happens to one that is there. -/
def insertAt (replace : Bool) (id : Text) (setOn : Nat) : ChannelMap → ChannelMap
  | [] => [(id, setOn)]
  | item :: rest =>
    if item.1 = id then (if replace then (id, setOn) else item) :: rest
    else if id < item.1 then (id, setOn) :: item :: rest
    else item :: insertAt replace id setOn rest

def emplace (map : ChannelMap) (id : Text) (setOn : Nat) : ChannelMap := insertAt false id setOn map

/-- The channels of a map. -/
def ids (map : ChannelMap) : List Text := map.map Prod.fst

theorem mem_ids_insertAt {replace : Bool} {id id' : Text} {setOn : Nat} {map : ChannelMap} :
    id' ∈ ids (insertAt replace id setOn map) ↔ id' = id ∨ id' ∈ ids map := by
  induction map with
  | nil => simp [insertAt, ids]
  | cons item rest ih =>
    unfold insertAt
    split
    · next heq =>
      cases replace with
      | true => simp [ids, heq]
      | false => simp [ids, heq]
    · split
      · simp [ids]
      · simp only [ids, List.map_cons, List.mem_cons] at ih ⊢
        rw [ih]
        tauto

end ChannelMap

/-- What the client library and redis do with texts: the arguments that `redisCommand` makes
of a format without further arguments, and the number that redis reads as a score. -/
structure RedisClient where
  args : Text → Option (List Text)
  score : Text → Option Nat

def decimal (n : Nat) : Text := CText.bytes (toString n)

/-- A format text without `%` is split at its blanks, and the numbers that settings are made
of are read back. -/
structure RedisClient.Documented (client : RedisClient) : Prop where
  args : ∀ text, 37 ∉ text → client.args text = some (CText.words text)
  score : ∀ n < 32, client.score (decimal n) = some n

structure ChannelRedis where
  members : Text → String → Bool := fun _ _ => false
  lists : Text → ChannelMap := fun _ => []

namespace ChannelRedis

variable (client : RedisClient) (c : ChannelRedis)

def setMember (key : Text) (member : String) (value : Bool) : ChannelRedis :=
  { c with
    members := fun key' member' =>
      if key' = key ∧ member' = member then value else c.members key' member' }

def sadd (key : Text) (member : String) : ChannelRedis := c.setMember key member true

def srem (key : Text) (member : String) : ChannelRedis := c.setMember key member false

/-- The scores and members of a `ZADD` command. -/
def scorePairs : List Text → Option (List (Text × Nat))
  | [] => some []
  | [_] => none
  | score :: member :: rest => do
    let n ← client.score score
    let pairs ← scorePairs rest
    return (member, n) :: pairs

/-- The text of the command; each score and member goes through a buffer of 128 bytes. -/
def zaddText (key : Text) (map : ChannelMap) : Text :=
  CText.bytes "ZADD " ++ key ++
    map.flatMap fun item => 32 :: (decimal item.2 ++ 32 :: item.1).take 127

def insertPairs (key : Text) (pairs : List (Text × Nat)) : ChannelRedis :=
  { c with
    lists := Function.update c.lists key
      (pairs.foldl (fun map p => ChannelMap.insertAt true p.1 p.2 map) (c.lists key)) }

def zadd (key : Text) (map : ChannelMap) : Option ChannelRedis :=
  match client.args (zaddText key map) with
  | some (_ :: key :: rest) =>
    match scorePairs client rest with
    | some pairs => if pairs = [] then none else some (c.insertPairs key pairs)
    | none => none
  | _ => none

/-- `snprintf` of two texts into a buffer of 128 bytes. -/
def keyOf (pre : String) (id : Text) : Text := (CText.bytes pre ++ id).take 127

def userChannelKey (userId : String) : Text := keyOf "USER_CHNNSTATUS_" (CText.bytes userId)

def channelUserKey (radioId : Text) : Text := keyOf "CHNN_USER_" radioId

def channelOfflineUserKey (radioId : Text) : Text := keyOf "CHNN_OFFLINE_USER_" radioId

def getUserChannel (userId : String) : ChannelMap := c.lists (userChannelKey userId)

def addChannelToUser (userId : String) (map : ChannelMap) : Option ChannelRedis :=
  c.zadd client (userChannelKey userId) map

/-- One turn of a move: the user leaves the set of the channel in one family and, if `push`
says so, enters that in the other. -/
def moveMember (src dst : Text → Text) (push : Nat → Bool) (userId : String) (c : ChannelRedis)
    (item : Text × Nat) : ChannelRedis :=
  let c := c.srem (src item.1) userId
  if push item.2 then c.sadd (dst item.1) userId else c

def moveOnlineUserToChannel (map : ChannelMap) (userId : String) : ChannelRedis :=
  map.foldl (moveMember channelOfflineUserKey channelUserKey (fun _ => true) userId) c

/-- Whether an offline user is told about new messages of a channel. -/
def isPush (newMsg hideSound : Bool) (setOn : Nat) : Bool :=
  let isHide := setOn.testBit 0
  let isUndisturb := setOn.testBit 4
  if newMsg then
    if !isUndisturb then (if isHide then hideSound else true) else false
  else false

def moveOfflineUserToChannel (map : ChannelMap) (userId : String) (newMsg hideSound : Bool) :
    ChannelRedis :=
  map.foldl (moveMember channelUserKey channelOfflineUserKey (isPush newMsg hideSound) userId) c

theorem channelUserKey_ne_offline (id id' : Text) :
    channelUserKey id ≠ channelOfflineUserKey id' := by
  have honline : CText.bytes "CHNN_USER_" = [67, 72, 78, 78, 95, 85, 83, 69, 82, 95] := by decide
  have hoffline : CText.bytes "CHNN_OFFLINE_USER_" =
      [67, 72, 78, 78, 95, 79, 70, 70, 76, 73, 78, 69, 95, 85, 83, 69, 82, 95] := by decide
  intro h
  rw [channelUserKey, channelOfflineUserKey, keyOf, keyOf, honline, hoffline] at h
  simp at h

/-- A key does not see what is cut off behind its end. -/
theorem keyOf_take {pre : String} {n : Nat} (h : 127 ≤ (CText.bytes pre).length + n) (id : Text) :
    keyOf pre (id.take n) = keyOf pre id := by
  rw [keyOf, keyOf, List.take_append, List.take_append, List.take_take, Nat.min_eq_left (by omega)]

variable {c} {src dst : Text → Text} {push : Nat → Bool} {userId : String} {map : ChannelMap}

theorem lists_move (c : ChannelRedis) :
    (map.foldl (moveMember src dst push userId) c).lists = c.lists := by
  refine Run.foldl_keeps ChannelRedis.lists ?_ c
  intro c item _
  unfold moveMember
  dsimp only
  split
  · rfl
  · rfl

/-- The members after a turn: the user leaves the one set, and may enter the other. -/
theorem member_moveMember {item : Text × Nat} (hne : src item.1 ≠ dst item.1) {key : Text}
    {u : String} :
    (moveMember src dst push userId c item).members key u = true ↔
      (u = userId ∧ push item.2 = true ∧ key = dst item.1) ∨
        (c.members key u = true ∧ ¬ (u = userId ∧ key = src item.1)) := by
  have hkeys : key = dst item.1 → key ≠ src item.1 := fun hdst hsrc => hne (hsrc.symm.trans hdst)
  unfold moveMember
  dsimp only
  split
  · simp only [sadd, srem, setMember]
    grind
  · simp only [srem, setMember]
    grind

theorem member_move_iff (hne : ∀ id id', src id ≠ dst id') {key : Text} {u : String}
    (c : ChannelRedis) :
    (map.foldl (moveMember src dst push userId) c).members key u = true ↔
      (u = userId ∧ ∃ item ∈ map, push item.2 = true ∧ key = dst item.1) ∨
        (c.members key u = true ∧ ¬ (u = userId ∧ ∃ item ∈ map, key = src item.1)) := by
  induction map generalizing c with
  | nil => simp
  | cons item map ih =>
    -- No later turn leaves a set that this one has entered.
    have hkeys : key = dst item.1 → ∀ item' ∈ map, key ≠ src item'.1 :=
      fun hdst item' _ hsrc => hne item'.1 item.1 (hsrc.symm.trans hdst)
    rw [List.foldl_cons, ih, member_moveMember (hne _ _)]
    simp only [List.mem_cons, exists_eq_or_imp]
    grind

theorem member_move (hne : ∀ id id', src id ≠ dst id') {key : Text} {u : String} (c : ChannelRedis)
    (h : (map.foldl (moveMember src dst push userId) c).members key u = true) :
    c.members key u = true ∨ (u = userId ∧ ∃ id ∈ map.ids, key = dst id) := by
  obtain ⟨hu, item, hitem, -, hkey⟩ | ⟨hbefore, -⟩ := (member_move_iff hne c).mp h
  · exact .inr ⟨hu, item.1, List.mem_map_of_mem hitem, hkey⟩
  · exact .inl hbefore

/-- The user is in no set that the move takes him out of. -/
theorem not_member_move (hne : ∀ id id', src id ≠ dst id') {id : Text} (hid : id ∈ map.ids)
    (c : ChannelRedis) :
    (map.foldl (moveMember src dst push userId) c).members (src id) userId = false := by
  obtain ⟨item, hitem, rfl⟩ := List.mem_map.mp hid
  refine eq_false_of_ne_true fun htrue => ?_
  obtain ⟨-, item', -, -, hkey⟩ | ⟨-, hnot⟩ := (member_move_iff hne c).mp htrue
  · exact hne item.1 item'.1 hkey
  · exact hnot ⟨rfl, item, hitem, rfl⟩

/-- A text that is one word of a command. -/
def IsWord (text : Text) : Prop := text ≠ [] ∧ 32 ∉ text ∧ 37 ∉ text

instance (text : Text) : Decidable (IsWord text) := inferInstanceAs (Decidable (_ ∧ _))

/-- Channels with ids that are words, and settings that `getUserRadioIds` makes. -/
def PlainMap (map : ChannelMap) : Prop :=
  ∀ item ∈ map, IsWord item.1 ∧ item.2 ∈ [0, 1, 16, 17]

theorem isWord_decimal {n : Nat} (h : n ∈ [0, 1, 16, 17]) :
    IsWord (decimal n) ∧ (decimal n).length ≤ 2 := by
  revert n
  decide

/-- The id as it goes into the list. -/
def cutId (item : Text × Nat) : Text := item.1.take (126 - (decimal item.2).length)

theorem isWord_take {text : Text} (h : IsWord text) {n : Nat} (hn : 0 < n) :
    IsWord (text.take n) := by
  refine ⟨?_, ?_, ?_⟩
  · rw [ne_eq, List.take_eq_nil_iff]
    exact not_or.mpr ⟨by omega, h.1⟩
  · exact fun hmem => h.2.1 (List.mem_of_mem_take hmem)
  · exact fun hmem => h.2.2 (List.mem_of_mem_take hmem)

theorem item_text {item : Text × Nat} (h : (decimal item.2).length ≤ 2) :
    (decimal item.2 ++ 32 :: item.1).take 127 = decimal item.2 ++ 32 :: cutId item := by
  have hlen : 127 - (decimal item.2).length = 126 - (decimal item.2).length + 1 := by omega
  rw [List.take_append, List.take_of_length_le (by omega), hlen, List.take_succ_cons]
  rfl

/-- The words of the command. -/
def zaddWords (key : Text) (map : ChannelMap) : List Text :=
  CText.bytes "ZADD" :: key :: map.flatMap fun item => [decimal item.2, cutId item]

theorem zaddText_eq (key : Text) (h : PlainMap map) :
    zaddText key map = [32].intercalate (zaddWords key map) := by
  have htext : CText.bytes "ZADD " = CText.bytes "ZADD" ++ [32] := by decide
  have hitems : (map.flatMap fun item => 32 :: (decimal item.2 ++ 32 :: item.1).take 127) =
      (map.flatMap fun item => [decimal item.2, cutId item]).flatMap (32 :: ·) := by
    rw [List.flatMap_assoc]
    refine List.flatMap_congr fun item hitem => ?_
    rw [item_text (isWord_decimal (h item hitem).2).2]
    simp
  rw [zaddText, zaddWords, CText.intercalate_cons, List.flatMap_cons, htext, hitems]
  simp

theorem isWord_zaddWords {key : Text} (hkey : IsWord key) (h : PlainMap map) {word : Text}
    (hword : word ∈ zaddWords key map) : IsWord word := by
  rcases List.mem_cons.mp hword with rfl | hword
  · decide
  · rcases List.mem_cons.mp hword with rfl | hword
    · exact hkey
    · obtain ⟨item, hitem, hword⟩ := List.mem_flatMap.mp hword
      obtain ⟨hid, hsetOn⟩ := h item hitem
      have hdecimal := isWord_decimal hsetOn
      rcases List.mem_cons.mp hword with rfl | hword
      · exact hdecimal.1
      · rw [List.mem_singleton.mp hword]
        exact isWord_take hid (by omega)

theorem scorePairs_words {client : RedisClient} (hclient : client.Documented) (h : PlainMap map) :
    scorePairs client (map.flatMap fun item => [decimal item.2, cutId item]) =
      some (map.map fun item => (cutId item, item.2)) := by
  induction map with
  | nil => rfl
  | cons item map ih =>
    have hlt : item.2 < 32 := by
      have hsetOn := (h item List.mem_cons_self).2
      simp only [List.mem_cons, List.not_mem_nil, or_false] at hsetOn
      omega
    have hrest := ih fun item hitem => h item (List.mem_cons_of_mem _ hitem)
    rw [List.flatMap_cons]
    simp only [List.cons_append, List.nil_append, scorePairs, hclient.score _ hlt, hrest]
    rfl

/-- For ids and keys that are words, `zadd` adds the channels to the list. -/
theorem zadd_words {client : RedisClient} (hclient : client.Documented) {key : Text}
    (hkey : IsWord key) (h : PlainMap map) (hne : map ≠ []) (c : ChannelRedis) :
    c.zadd client key map = some (c.insertPairs key (map.map fun item => (cutId item, item.2))) := by
  have hwords : ∀ word ∈ zaddWords key map, IsWord word := fun word => isWord_zaddWords hkey h
  have hargs : client.args (zaddText key map) = some (zaddWords key map) := by
    have hformat : 37 ∉ zaddText key map := by
      rw [zaddText_eq key h, zaddWords, CText.intercalate_cons, List.mem_append, List.mem_flatMap]
      rintro (hmem | ⟨word, hword, hmem⟩)
      · exact absurd hmem (by decide)
      · rcases List.mem_cons.mp hmem with heq | hmem
        · exact absurd heq (by decide)
        · exact (hwords word (List.mem_cons_of_mem _ hword)).2.2 hmem
    rw [hclient.args _ hformat, zaddText_eq key h]
    refine congrArg some (CText.words_intercalate (List.cons_ne_nil _ _) ?_)
    exact fun word hword => ⟨(hwords word hword).1, (hwords word hword).2.1⟩
  rw [zadd, hargs, zaddWords]
  dsimp only
  rw [scorePairs_words hclient h]
  dsimp only
  rw [if_neg (by simpa using hne)]

theorem mem_ids_insertPairs {key key' : Text} {pairs : List (Text × Nat)} {id : Text}
    (c : ChannelRedis) :
    id ∈ ((c.insertPairs key pairs).lists key').ids ↔
      id ∈ (c.lists key').ids ∨ (key' = key ∧ id ∈ pairs.map Prod.fst) := by
  have hfold : ∀ map : ChannelMap,
      id ∈ (pairs.foldl (fun map p => ChannelMap.insertAt true p.1 p.2 map) map).ids ↔
        id ∈ map.ids ∨ id ∈ pairs.map Prod.fst := by
    induction pairs with
    | nil => simp
    | cons p pairs ih =>
      intro map
      rw [List.foldl_cons, ih, ChannelMap.mem_ids_insertAt, List.map_cons, List.mem_cons]
      tauto
  by_cases hkey : key' = key
  · subst hkey
    simp only [insertPairs, Function.update_self, hfold, true_and]
  · simp only [insertPairs, Function.update_of_ne hkey, hkey, false_and, or_false]

end ChannelRedis

end Login

end ImServer
