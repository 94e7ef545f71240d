import ImServer.Lib.CText
import ImServer.Lib.Run

/-!
# Connections to redis

A `CacheConn` (data_oper/CachePool.cpp) connects again when it has no context, and each of its
operations sends commands and reads replies through hiredis. Two things are followed over the
whole life of a connection: whether the context is ready for commands when `Init` returns 0, and
whether each operation reads the replies of its own commands.

hiredis itself is not part of the repository: what it makes of a format text is a parameter, and
the replies come in the order of the commands.
-/

namespace ImServer

namespace Cache

abbrev Text := List UInt8

/-- What a `CachePool` has from the configuration. -/
structure CachePool where
  password : String
  dbNum : Nat
  deriving DecidableEq, Repr

/-- What the server knows of a context; a new one is at database 0. -/
structure Context where
  authenticated : Bool := false
  db : Nat := 0
  deriving DecidableEq, Repr

structure CacheConn where
  context : Option Context := none
  lastConnectTime : Nat := 0
  deriving DecidableEq, Repr

/-- The answers that a call of `Init` meets: whether the connect succeeds, and whether the
replies to the two commands are "OK". -/
structure Outcomes where
  time : Nat
  connected : Bool := true
  auth : Bool := true
  select : Bool := true
  deriving DecidableEq, Repr

namespace CacheConn

/-- `Init` sends `AUTH` also without a password; a context that was refused is kept. -/
def init (pool : CachePool) (env : Outcomes) (conn : CacheConn) : Nat × CacheConn :=
  match conn.context with
  | some _ => (0, conn)
  | none =>
    if env.time < conn.lastConnectTime + 4 then (1, conn)
    else if !env.connected then (1, { conn with lastConnectTime := env.time })
    else if !env.auth then (2, ⟨some {}, env.time⟩)
    else if !env.select then (3, ⟨some { authenticated := true }, env.time⟩)
    else (0, ⟨some ⟨true, pool.dbNum⟩, env.time⟩)

/-- What happens to a connection; an operation that gets no reply frees the context. -/
inductive Event where
  | init (env : Outcomes)
  | disconn
  deriving DecidableEq, Repr

def step (pool : CachePool) (conn : CacheConn) : Event → CacheConn
  | .init env => (conn.init pool env).2
  | .disconn => { conn with context := none }

def run (pool : CachePool) (events : List Event) : CacheConn := events.foldl (step pool) {}

end CacheConn

/-- Authenticated, if there is a password, and at the configured database. -/
def Context.Ready (pool : CachePool) (context : Context) : Prop :=
  (pool.password ≠ "" → context.authenticated) ∧ context.db = pool.dbNum

/-- A call of `Init` that returns 0 leaves a ready context, whatever the server answers to it. -/
def CacheConn.InitReady (pool : CachePool) (conn : CacheConn) : Prop :=
  ∀ env, (conn.init pool env).1 = 0 → ∃ context ∈ (conn.init pool env).2.context, context.Ready pool

/-- The calls of `Init` that do not leave a half-made context: if one gets through to the server,
a refused `AUTH` needs neither a password nor a database to be set, and a refused `SELECT` no
database. -/
def CacheConn.Event.Completes (pool : CachePool) (conn : CacheConn) : Event → Prop
  | .init env =>
    conn.context = none → conn.lastConnectTime + 4 ≤ env.time → env.connected →
      (env.auth ∨ pool.password = "" ∧ pool.dbNum = 0) ∧
      (env.auth → env.select ∨ pool.dbNum = 0)
  | .disconn => True

theorem Context.ready_iff_of_db_zero {pool : CachePool} (authenticated : Bool) :
    Context.Ready pool ⟨authenticated, 0⟩ ↔
      (authenticated ∨ pool.password = "") ∧ pool.dbNum = 0 := by
  refine and_congr ?_ eq_comm
  rw [ne_eq, ← or_iff_not_imp_left, or_comm]

namespace CacheConn

variable {pool : CachePool} {conn : CacheConn}

/-- A call that makes a context and returns 0 has set it up. -/
theorem context_of_init_eq_zero {env : Outcomes} (hnone : conn.context = none)
    (h : (conn.init pool env).1 = 0) : (conn.init pool env).2.context = some ⟨true, pool.dbNum⟩ := by
  revert h
  simp only [init, hnone]
  repeat' split
  all_goals simp

/-- All that matters for later calls is the context that is there. -/
theorem initReady_iff : conn.InitReady pool ↔ ∀ context ∈ conn.context, context.Ready pool := by
  constructor
  · intro h context hcontext
    have hinit : conn.init pool ⟨0, true, true, true⟩ = (0, conn) := by
      simp [init, Option.mem_def.mp hcontext]
    obtain ⟨context', hcontext', hready⟩ := h ⟨0, true, true, true⟩ (by rw [hinit])
    rw [hinit] at hcontext'
    cases Option.mem_unique hcontext hcontext'
    exact hready
  · intro h env hzero
    match hcontext : conn.context with
    | some context =>
      have hinit : conn.init pool env = (0, conn) := by simp [init, hcontext]
      rw [hinit]
      exact ⟨context, hcontext, h context hcontext⟩
    | none =>
      have hmade := context_of_init_eq_zero hcontext hzero
      exact ⟨_, hmade, fun _ => rfl, rfl⟩

theorem initReady_step (event : Event) (h : conn.InitReady pool) :
    (conn.step pool event).InitReady pool ↔ event.Completes pool conn := by
  rw [initReady_iff] at h ⊢
  cases event with
  | disconn => simp [step, Event.Completes]
  | init env =>
    simp only [step, Event.Completes]
    match hcontext : conn.context with
    | some context =>
      simpa [init, hcontext] using h context hcontext
    | none =>
      simp only [init, hcontext, forall_const]
      split
      · next hearly => simp [hcontext, Nat.not_le.mpr hearly]
      · next hlate =>
        simp only [Nat.not_lt.mp hlate, forall_const]
        cases hconnected : env.connected with
        | false => simp
        | true =>
          cases hauth : env.auth with
          | false => simp [Context.ready_iff_of_db_zero]
          | true =>
            cases hselect : env.select with
            | false => simp [Context.ready_iff_of_db_zero]
            | true => simp [Context.Ready]

/-- At every time of a life of a connection a call of `Init` that returns 0 leaves a ready
context, exactly when none of its calls leaves a half-made one. -/
theorem init_ready_iff (pool : CachePool) (events : List Event) :
    (∀ pre, pre <+: events → (run pool pre).InitReady pool) ↔
      ∀ pre event, pre ++ [event] <+: events → event.Completes pool (run pool pre) :=
  Run.foldl_inv_iff (fun conn : CacheConn => conn.InitReady pool)
    (initReady_iff.mpr (by simp)) (fun _ event h => initReady_step event h) events

/-- The server refuses `AUTH` once; the next call of `Init` returns 0 at once. -/
theorem init_unready_after_auth :
    ¬ ∀ (pool : CachePool) (events : List Event), (run pool events).InitReady pool := by
  intro h
  have hready := h ⟨"secret", 3⟩ [.init { time := 10, auth := false }]
  obtain ⟨context, hcontext, hauth, -⟩ := hready { time := 11 } rfl
  cases hcontext
  exact absurd (hauth (by decide)) (by decide)

end CacheConn

/-- The arguments of a command. -/
abbrev Command := List Text

/-- What hiredis makes of a format text without further arguments; none if it is not valid. -/
abbrev Format := Text → Option Command

/-- `c_str()` as the C library reads it. -/
def cstr (text : Text) : Text := text.takeWhile (· ≠ 0)

def decimal (n : Int) : Text := CText.bytes (toString n)

/-- Words with a blank in front of each. -/
def blanked (parts : List Text) : Text := parts.flatMap (32 :: ·)

/-- `CacheConn::mget`: the text of the command. -/
def mgetText (keys : List Text) : Text := CText.bytes "MGET " ++ [32].intercalate keys

/-- The texts of `sadd`, `srem` and `zrem` with a list. -/
def listText (name : String) (key : Text) (values : List Text) : Text :=
  CText.bytes name ++ 32 :: key ++ blanked values

/-- The text of `zadd` with a map; each member goes through a buffer of 128 bytes. -/
def zaddText (key : Text) (values : List (Text × Int)) : Text :=
  CText.bytes "ZADD" ++ 32 :: key ++
    blanked (values.map fun item => (decimal item.2 ++ 32 :: cstr item.1).take 127)

/-- The texts of `hmgetAllBykeys`, which go through a buffer of 256 bytes. -/
def hmgetText (fields : List Text) (key : Text) : Text :=
  (CText.bytes "HMGET " ++ cstr key ++ cstr (blanked fields)).take 255

/-- The operations of a `CacheConn` with their arguments, as the servers call them. -/
inductive CacheOp where
  | get (key : Text)
  | setex (key : Text) (timeout : Int) (value : Text)
  | set (key value : Text)
  | mget (keys : List Text)
  | isExists (key : Text)
  | isExistsKeys (keys : List Text)
  | del (key : Text)
  | delKeys (keys : List Text)
  | hdel (key field : Text)
  | hget (key field : Text)
  | hgetAll (key : Text)
  | hgetAllBykeys (keys : List Text)
  | hmgetAllBykeys (keys fields : List Text)
  | hset (key field value : Text)
  | hincrBy (key field : Text) (value : Int)
  | incrBy (key : Text) (value : Int)
  | hmset (key : Text) (hash : List (Text × Text))
  | hmget (key : Text) (fields : List Text)
  | incr (key : Text)
  | decr (key : Text)
  | lpush (key value : Text)
  | lpop (key : Text)
  | lrem (key value : Text)
  | rpush (key value : Text)
  | rmpush (key : Text) (values : List Text)
  | llen (key : Text)
  | lrange (key : Text) (start stop : Int)
  | saddList (key : Text) (values : List Text)
  | sadd (key value : Text)
  | scard (key : Text)
  | smembers (key : Text)
  | sremList (key : Text) (values : List Text)
  | srem (key value : Text)
  | smove (srcKey destKey value : Text)
  | zadd (key member : Text) (score : Int)
  | zaddMap (key : Text) (values : List (Text × Int))
  | zcard (key : Text)
  | zrange (key : Text) (withScores : Bool)
  | zremList (key : Text) (values : List Text)
  | zrem (key value : Text)
  | zscore (key member : Text)
  deriving DecidableEq, Repr

/-- How an operation uses hiredis. -/
inductive Calls where
  /-- It returns before. -/
  | refused
  /-- `redisCommand` with arguments, or `redisCommandArgv`. -/
  | command (name : String) (args : List Text)
  /-- `redisCommand` with a text of its own. -/
  | format (text : Text)
  /-- `redisAppendCommand` for each of the commands, and then `redisGetReply`. -/
  | pipeline (commands : List Command) (replies : Nat)
  /-- The same with texts. -/
  | formats (texts : List Text) (replies : Nat)

def commandOf (name : String) (args : List Text) : Command := CText.bytes name :: args.map cstr

def CacheOp.calls : CacheOp → Calls
  | get key => .command "GET" [key]
  | setex key timeout value => .command "SETEX" [key, decimal timeout, value]
  | set key value => .command "SET" [key, value]
  | mget keys => if keys = [] then .refused else .format (cstr (mgetText keys))
  | isExists key => .command "EXISTS" [key]
  | isExistsKeys keys => .pipeline (keys.map fun key => commandOf "EXISTS" [key]) keys.length
  | del key => .command "DEL" [key]
  | delKeys keys => .pipeline (keys.map fun key => commandOf "DEL" [key]) keys.length
  | hdel key field => .command "HDEL" [key, field]
  | hget key field => .command "HGET" [key, field]
  | hgetAll key => .command "HGETALL" [key]
  | hgetAllBykeys keys => .pipeline (keys.map fun key => commandOf "HGETALL" [key]) keys.length
  | hmgetAllBykeys keys fields => .formats (keys.map (hmgetText fields)) keys.length
  | hset key field value => .command "HSET" [key, field, value]
  | hincrBy key field value => .command "HINCRBY" [key, field, decimal value]
  | incrBy key value => .command "INCRBY" [key, decimal value]
  | hmset key hash => .command "HMSET" (key :: hash.flatMap fun item => [item.1, item.2])
  | hmget key fields => .command "HMGET" (key :: fields)
  | incr key => .command "INCR" [key]
  | decr key => .command "DECR" [key]
  | lpush key value => .command "LPUSH" [key, value]
  | lpop key => .command "LPOP" [key]
  | lrem key value => .command "LREM" [key, decimal (-1), value]
  | rpush key value => .command "RPUSH" [key, value]
  -- One reply is read, whatever the number of values is.
  | rmpush key values => .pipeline (values.map fun value => commandOf "RPUSH" [key, value]) 1
  | llen key => .command "LLEN" [key]
  | lrange key start stop => .command "LRANGE" [key, decimal start, decimal stop]
  | saddList key values => .format (cstr (listText "SADD" key values))
  | sadd key value => .command "SADD" [key, value]
  | scard key => .command "SCARD" [key]
  | smembers key => .command "SMEMBERS" [key]
  | sremList key values => .format (cstr (listText "SREM" key values))
  | srem key value => .command "SREM" [key, value]
  | smove srcKey destKey value => .command "SMOVE" [srcKey, destKey, value]
  | zadd key member score => .command "ZADD" [key, decimal score, member]
  | zaddMap key values => .format (cstr (zaddText key values))
  | zcard key => .command "ZCARD" [key]
  | zrange key withScores =>
    .command "ZRANGE" ([key, decimal 0, decimal (-1)] ++
      if withScores then [CText.bytes "WITHSCORES"] else [])
  | zremList key values => .format (cstr (listText "ZREM" key values))
  | zrem key value => .command "ZREM" [key, value]
  | zscore key member => .command "ZSCORE" [key, member]

/-- An open connection with the commands whose replies were not read. -/
structure Link where
  pending : List Command := []
  sent : Nat := 0
  consumed : Nat := 0
  /-- Each operation has read the replies of its own commands. -/
  own : Bool := true
  /-- An operation waits for a reply to no command. -/
  stuck : Bool := false
  freed : Bool := false
  deriving DecidableEq, Repr

/-- Calls of `redisGetReply`: the commands whose replies come, and those left; none if one of
the calls does not return. -/
def getReplies : Nat → List Command → Option (List Command × List Command)
  | 0, pending => some ([], pending)
  | _ + 1, [] => none
  | n + 1, command :: pending =>
    (getReplies n pending).map fun result => (command :: result.1, result.2)

namespace Link

variable (format : Format) (link : Link)

/-- Commands are sent, and replies are read. -/
def exchange (commands : List Command) (replies : Nat) : Link :=
  match getReplies replies (link.pending ++ commands) with
  | some (read, pending) =>
    { link with
      pending := pending
      sent := link.sent + commands.length
      consumed := link.consumed + replies
      own := link.own && read = commands }
  | none => { link with stuck := true }

/-- A format text that is not valid is not sent. `redisCommand` returns no reply then, and the
context is freed. `redisAppendCommand` is not asked for its result, but it leaves an error in the
context, with which nothing that was appended is written and `redisGetReply` gives no reply, so
that the context is freed as well. (Replies that an earlier operation left unread could come
before that; the connection is out of step then already.) -/
def perform : Calls → Link
  | .refused => link
  | .command name args => link.exchange [commandOf name args] 1
  | .format text =>
    match format text with
    | some command => link.exchange [command] 1
    | none => { link with freed := true }
  | .pipeline commands replies => link.exchange commands replies
  | .formats texts replies =>
    match texts.mapM format with
    | some commands => link.exchange commands replies
    | none => { link with freed := true }

/-- An operation; there is no other one behind one that is stuck, and those behind a freed
context are on another connection. -/
def step (op : CacheOp) : Link :=
  if link.stuck || link.freed then link else link.perform format op.calls

def run (ops : List CacheOp) : Link := ops.foldl (step format) {}

/-- Every operation has returned, with as many replies read as commands sent, those of its own
commands. -/
def Paired : Prop := link.stuck = false ∧ link.consumed = link.sent ∧ link.own = true

end Link

/-- The operations that read a reply for each command: all of them, but not `rmpush` without
values or with more than one, which reads one reply however many commands it has sent. -/
def CacheOp.Pairs : CacheOp → Prop
  | rmpush _ values => values.length = 1
  | _ => True

theorem getReplies_length (commands : List Command) :
    getReplies commands.length commands = some (commands, []) := by
  induction commands with
  | nil => rfl
  | cons command commands ih => simp [getReplies, ih]

theorem getReplies_eq_some {n : Nat} {commands read pending : List Command}
    (h : getReplies n commands = some (read, pending)) :
    commands = read ++ pending ∧ read.length = n := by
  induction n generalizing commands read with
  | zero =>
    cases h
    exact ⟨rfl, rfl⟩
  | succ n ih =>
    cases commands with
    | nil => cases h
    | cons command commands =>
      simp only [getReplies, Option.map_eq_some_iff] at h
      obtain ⟨⟨read', pending'⟩, hrest, heq⟩ := h
      cases heq
      obtain ⟨hcommands, hlen⟩ := ih hrest
      exact ⟨by rw [hcommands, List.cons_append], by rw [List.length_cons, hlen]⟩

namespace Link

variable {format : Format} {link : Link}

/-- Nothing is left unread on a connection whose operations pair up: each of them has taken the
replies to its own commands. -/
structure Clean (link : Link) : Prop where
  pending : link.pending = []
  paired : link.Paired

theorem exchange_clean_iff (h : link.Clean) (commands : List Command) (replies : Nat) :
    (link.exchange commands replies).Clean ↔ commands.length = replies := by
  obtain ⟨hpending, hstuck, hcount, hown⟩ := h
  constructor
  · intro hclean
    cases hread : getReplies replies (link.pending ++ commands) with
    | none =>
      simp only [exchange, hread] at hclean
      exact absurd hclean.paired.1 (by simp)
    | some result =>
      obtain ⟨read, pending⟩ := result
      obtain ⟨hsplit, hlen⟩ := getReplies_eq_some hread
      simp only [exchange, hread] at hclean
      have hnone : pending = [] := hclean.pending
      rw [hpending, hnone, List.nil_append, List.append_nil] at hsplit
      rw [hsplit, hlen]
  · rintro rfl
    simp only [exchange, hpending, List.nil_append, getReplies_length]
    exact ⟨rfl, hstuck, by simp [hcount], by simp [hown]⟩

theorem length_of_mapM {texts : List Text} {commands : List Command}
    (h : texts.mapM format = some commands) : commands.length = texts.length := by
  induction texts generalizing commands with
  | nil =>
    cases h
    rfl
  | cons text texts ih =>
    simp only [List.mapM_cons, Option.bind_eq_bind, Option.bind_eq_some_iff] at h
    obtain ⟨command, -, rest, hrest, heq⟩ := h
    cases heq
    rw [List.length_cons, List.length_cons, ih hrest]

theorem perform_format_clean (h : link.Clean) (text : Text) :
    (link.perform format (.format text)).Clean := by
  cases htext : format text with
  | none =>
    simp only [perform, htext]
    exact ⟨h.pending, h.paired⟩
  | some command =>
    simp only [perform, htext]
    exact (exchange_clean_iff h _ _).mpr rfl

/-- Either all the texts are sent and a reply is read for each, or the context is freed. -/
theorem perform_formats_clean (h : link.Clean) (texts : List Text) :
    (link.perform format (.formats texts texts.length)).Clean := by
  cases hcommands : texts.mapM format with
  | none =>
    simp only [perform, hcommands]
    exact ⟨h.pending, h.paired⟩
  | some commands =>
    simp only [perform, hcommands]
    exact (exchange_clean_iff h _ _).mpr (length_of_mapM hcommands)

theorem perform_clean_iff (h : link.Clean) (op : CacheOp) :
    (link.perform format op.calls).Clean ↔ op.Pairs := by
  cases op with
  | rmpush key values => simp [CacheOp.calls, CacheOp.Pairs, perform, exchange_clean_iff h]
  | hmgetAllBykeys keys fields =>
    simp only [CacheOp.calls, CacheOp.Pairs, iff_true]
    rw [← List.length_map (hmgetText fields)]
    exact perform_formats_clean h _
  | mget keys =>
    simp only [CacheOp.calls, CacheOp.Pairs, iff_true]
    split
    · exact h
    · exact perform_format_clean h _
  | saddList | sremList | zaddMap | zremList =>
    simp [CacheOp.calls, CacheOp.Pairs, perform_format_clean h]
  | _ => simp [CacheOp.calls, CacheOp.Pairs, perform, exchange_clean_iff h]

theorem step_clean_iff (h : link.Clean) (op : CacheOp) :
    (link.step format op).Clean ↔ link.freed ∨ op.Pairs := by
  cases hfreed : link.freed with
  | true => simp [step, hfreed, h]
  | false => simp [step, hfreed, h.paired.1, perform_clean_iff h]

/-- The replies that were not read are those of commands that were sent. -/
theorem sent_eq_step (h : link.stuck = false → link.sent = link.consumed + link.pending.length)
    (op : CacheOp) (hlive : (link.step format op).stuck = false) :
    (link.step format op).sent =
      (link.step format op).consumed + (link.step format op).pending.length := by
  have hexchange : ∀ commands replies, link.stuck = false →
      (link.exchange commands replies).stuck = false →
      (link.exchange commands replies).sent =
        (link.exchange commands replies).consumed + (link.exchange commands replies).pending.length := by
    intro commands replies hstuck
    simp only [exchange]
    split
    · next read pending hread =>
      intro _
      obtain ⟨hsplit, hlen⟩ := getReplies_eq_some hread
      have hlengths := congrArg List.length hsplit
      simp only [List.length_append] at hlengths
      have hbefore := h hstuck
      dsimp only
      omega
    · exact fun hbad => absurd hbad (by simp)
  revert hlive
  simp only [step]
  split
  · exact h
  · next hrun =>
    have hstuck : link.stuck = false := by
      cases hs : link.stuck
      · rfl
      · simp [hs] at hrun
    cases op.calls with
    | refused => exact h
    | command name args => exact hexchange _ _ hstuck
    | pipeline commands replies => exact hexchange _ _ hstuck
    | formats texts replies =>
      simp only [perform]
      split
      · exact hexchange _ _ hstuck
      · exact fun _ => h hstuck
    | format text =>
      simp only [perform]
      split
      · exact hexchange _ _ hstuck
      · exact fun _ => h hstuck

theorem sent_eq_run (ops : List CacheOp) (hlive : (run format ops).stuck = false) :
    (run format ops).sent = (run format ops).consumed + (run format ops).pending.length := by
  revert hlive
  refine List.reverseRecOn ops (fun _ => rfl) ?_
  intro ops op ih
  rw [run, List.foldl_append]
  exact sent_eq_step ih op

theorem run_clean_iff (ops : List CacheOp) : (run format ops).Clean ↔ (run format ops).Paired := by
  refine ⟨Clean.paired, fun h => ⟨?_, h⟩⟩
  have hsent := sent_eq_run ops h.1
  have hcount := h.2.1
  exact List.length_eq_zero_iff.mp (by omega)

/-- In every sequence of operations each operation reads the replies of its own commands and no
others, exactly when each of them, while the connection is open, is one that pairs up. -/
theorem replies_paired_iff (format : Format) (ops : List CacheOp) :
    (∀ pre, pre <+: ops → (run format pre).Paired) ↔
      ∀ pre op, pre ++ [op] <+: ops → (run format pre).freed ∨ op.Pairs := by
  have hstep : ∀ (link : Link) (op : CacheOp), link.Clean →
      ((link.step format op).Clean ↔ link.freed ∨ op.Pairs) :=
    fun _ op h => step_clean_iff h op
  have hinit : Clean {} := ⟨rfl, rfl, rfl, rfl⟩
  refine Iff.trans ?_ (Run.foldl_inv_iff Clean hinit hstep ops)
  exact forall₂_congr fun pre _ => (run_clean_iff pre).symm

/-- Two values are pushed and one reply is read; the next operation gets the reply of the second
push. -/
theorem replies_not_paired_rmpush :
    ¬ ∀ (format : Format) (ops : List CacheOp), (run format ops).Paired := by
  intro h
  have hpaired := h (fun _ => none) [.rmpush [108] [[97], [98]], .get [107]]
  exact absurd hpaired.2.2 (by decide)

end Link

end Cache

end ImServer
