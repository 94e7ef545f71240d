import Mathlib.Algebra.Ring.Int.Defs
import Mathlib.Algebra.Order.BigOperators.Group.List
import ImServer.Data.CacheConn

/-!
# Operations with a list of members

`sadd`, `srem`, `zrem`, `zadd` and `mget` (data_oper/CachePool.cpp) have a form for one member,
which passes it to hiredis as an argument, and a form for a list, which writes all members into
one format text. The two are compared on every state of a redis database.

What hiredis makes of a text and how redis reads the arguments of `ZADD` is not part of the
repository; it is a parameter here, with its documented behaviour as hypotheses.
-/

namespace ImServer

namespace Cache

inductive Value where
  | str (text : Text)
  | set (members : List Text)
  | zset (scores : List (Text × Int32))
  | other
  deriving DecidableEq

abbrev Database := Text → Option Value

/-- A command that works on the value of its key, with the integer of the reply. One that lacks
arguments is refused; the integer of an error is 0. -/
def onKey (f : Option Value → List Text → Option Value × Int) (db : Database) :
    List Text → Database × Int
  | key :: arg :: args =>
    let result := f (db key) (arg :: args)
    (Function.update db key result.1, result.2)
  | _ => (db, 0)

def addMember (acc : List Text × Int) (member : Text) : List Text × Int :=
  if member ∈ acc.1 then acc else (acc.1 ++ [member], acc.2 + 1)

/-- `SADD`; a value of another type is an error. -/
def saddValue (value : Option Value) (members : List Text) : Option Value × Int :=
  let add (set : List Text) :=
    let result := members.foldl addMember (set, 0)
    (some (.set result.1), result.2)
  match value with
  | none => add []
  | some (.set set) => add set
  | _ => (value, 0)

def remMember (acc : List Text × Int) (member : Text) : List Text × Int :=
  if member ∈ acc.1 then (acc.1.filter (· ≠ member), acc.2 + 1) else acc

/-- An empty set is no key. -/
def ofSet : List Text → Option Value
  | [] => none
  | set => some (.set set)

/-- `SREM`. -/
def sremValue (value : Option Value) (members : List Text) : Option Value × Int :=
  match value with
  | some (.set set) =>
    let result := members.foldl remMember (set, 0)
    (ofSet result.1, result.2)
  | _ => (value, 0)

def zremMember (acc : List (Text × Int32) × Int) (member : Text) : List (Text × Int32) × Int :=
  if member ∈ acc.1.map Prod.fst then (acc.1.filter (·.1 ≠ member), acc.2 + 1) else acc

def ofScores : List (Text × Int32) → Option Value
  | [] => none
  | scores => some (.zset scores)

/-- `ZREM`. -/
def zremValue (value : Option Value) (members : List Text) : Option Value × Int :=
  match value with
  | some (.zset scores) =>
    let result := members.foldl zremMember (scores, 0)
    (ofScores result.1, result.2)
  | _ => (value, 0)

/-- The members are counted that are new. -/
def zaddMember (acc : List (Text × Int32) × Int) (item : Text × Int32) :
    List (Text × Int32) × Int :=
  if item.1 ∈ acc.1.map Prod.fst then
    (acc.1.map fun other => if other.1 = item.1 then item else other, acc.2)
  else (acc.1 ++ [item], acc.2 + 1)

/-- `ZADD` of members with scores that are integers. -/
def zaddItems (value : Option Value) (items : List (Text × Int32)) : Option Value × Int :=
  let add (scores : List (Text × Int32)) :=
    let result := items.foldl zaddMember (scores, 0)
    (some (.zset result.1), result.2)
  match value with
  | none => add []
  | some (.zset scores) => add scores
  | _ => (value, 0)

def Value.member : Option Value → Text → Prop
  | some (.zset scores), member => member ∈ scores.map Prod.fst
  | _, _ => False

structure Redis where
  format : Format
  /-- What `ZADD` does to a value with the arguments behind the key. -/
  zadd : Option Value → List Text → Option Value × Int

/-- The arguments that `ZADD` gets for members and their scores. -/
def scoreArgs (item : Text × Int32) : List Text := [decimal item.2.toInt, item.1]

/-- A text without `%` is split at its blanks; `ZADD` adds members with scores in decimal, and a
new sorted set has no members that were not among the arguments. -/
structure Redis.Documented (redis : Redis) : Prop where
  format : ∀ text, 37 ∉ text → redis.format text = some (CText.words text)
  zadd : ∀ value items, items ≠ [] →
    redis.zadd value (items.flatMap scoreArgs) = zaddItems value items
  zadd_new : ∀ args member, Value.member (redis.zadd none args).1 member → member ∈ args

inductive OperCode where
  | ok
  | disconn
  | nodate
  | paramExcept
  deriving DecidableEq, Repr

/-- What an operation leaves behind: the code, if it is defined, the database, the number and
the map that it returns. -/
structure Done where
  code : Option OperCode
  db : Database
  count : Int := 0
  map : Text → Option Text := fun _ => none

inductive ListOp where
  | sadd (key : Text) (values : List Text)
  | srem (key : Text) (values : List Text)
  | zrem (key : Text) (values : List Text)
  | zadd (key : Text) (values : List (Text × Int32))
  | mget (keys : List Text)

/-- The text of a reply to `GET`. -/
def textAt (db : Database) (key : Text) : Option Text :=
  match db key with
  | some (.str text) => some text
  | _ => none

/-- The loop of `mget` over the elements of the reply; an element more than there are keys
reads behind the end of `keys`. -/
def mgetLoop (db : Database) : List Text → List Text → (Text → Option Text) →
    Option (Text → Option Text)
  | [], _, map => some map
  | arg :: args, key :: keys, map =>
    match textAt db arg with
    | some text => mgetLoop db args keys (Function.update map key (some (cstr text)))
    | none => mgetLoop db args keys map
  | arg :: args, [], map => if (textAt db arg).isSome then none else mgetLoop db args [] map

/-- An operation that gives a text to `redisCommand`; what it does with the arguments behind the
name of the command. -/
def withText (redis : Redis) (text : Text) (db : Database) (reply : List Text → Done) : Done :=
  match redis.format (cstr text) with
  | some args => reply args.tail
  | none => { code := some .disconn, db := db }

/-- The code of `zadd` and `zrem`. -/
def countCode (count : Int) : OperCode := if count < 1 then .nodate else .ok

/-- What `mget` makes of the reply; redis refuses a command without keys. -/
def mgetReply (db : Database) (keys : List Text) : List Text → Done
  | [] => { code := some .nodate, db := db }
  | args =>
    match mgetLoop db args keys fun _ => none with
    | some map => { code := some .ok, db := db, map := map }
    | none => { code := none, db := db }

namespace ListOp

/-- The form for a list. Its command is one text, which is taken apart at blanks before it is
sent. -/
def list (redis : Redis) (db : Database) : ListOp → Done
  | sadd key values => withText redis (listText "SADD" key values) db fun args =>
    let result := onKey saddValue db args
    { code := some .ok, db := result.1, count := result.2 }
  | srem key values => withText redis (listText "SREM" key values) db fun args =>
    let result := onKey sremValue db args
    { code := some .ok, db := result.1, count := result.2 }
  | zrem key values => withText redis (listText "ZREM" key values) db fun args =>
    let result := onKey zremValue db args
    { code := some (countCode result.2), db := result.1 }
  | zadd key values =>
    let items := values.map fun item => (item.1, item.2.toInt)
    withText redis (zaddText key items) db fun args =>
      let result := onKey redis.zadd db args
      { code := some (countCode result.2), db := result.1 }
  | mget keys =>
    if keys = [] then { code := some .paramExcept, db := db }
    else withText redis (mgetText keys) db (mgetReply db keys)

end ListOp

/-- The form for one member, for each of the items: the database, and the integers of the
replies. -/
def each {α : Type} (f : Option Value → List Text → Option Value × Int) (key : Text)
    (args : α → List Text) : List α → Database → Database × List Int
  | [], db => (db, [])
  | item :: items, db =>
    let result := onKey f db (cstr key :: args item)
    let rest := each f key args items result.1
    (rest.1, result.2 :: rest.2)

/-- `get` of each of the keys into one map. -/
def getEach (db : Database) (keys : List Text) : Text → Option Text :=
  keys.foldl (fun map key =>
    match textAt db (cstr key) with
    | some text => Function.update map key (some text)
    | none => map) fun _ => none

/-- The code of several `zadd` or `zrem`: whether one of them was successful. -/
def eachCode (counts : List Int) : OperCode :=
  if counts.any (countCode · = .ok) then .ok else .nodate

/-- The form for one member, applied to the members in their order. -/
def ListOp.singles (redis : Redis) (db : Database) : ListOp → Done
  | sadd key values =>
    let result := each saddValue key (fun value => [cstr value]) values db
    { code := some .ok, db := result.1, count := result.2.sum }
  | srem key values =>
    let result := each sremValue key (fun value => [cstr value]) values db
    { code := some .ok, db := result.1, count := result.2.sum }
  | zrem key values =>
    let result := each zremValue key (fun value => [cstr value]) values db
    { code := some (eachCode result.2), db := result.1 }
  | zadd key values =>
    let result := each redis.zadd key (fun item => scoreArgs (cstr item.1, item.2)) values db
    { code := some (eachCode result.2), db := result.1 }
  | mget keys => { code := some .ok, db := db, map := getEach db keys }

/-- A step of a fold that adds to a count, whatever the count is. -/
structure Counts {σ α : Type} (step : σ × Int → α → σ × Int) : Prop where
  count : ∀ s n a, step (s, n) a = ((step (s, 0) a).1, n + (step (s, 0) a).2)
  nonneg : ∀ s a, 0 ≤ (step (s, 0) a).2

section Counting

variable {σ α : Type} {step : σ × Int → α → σ × Int}

theorem Counts.foldl_count (h : Counts step) (items : List α) (s : σ) (n : Int) :
    items.foldl step (s, n) =
      ((items.foldl step (s, 0)).1, n + (items.foldl step (s, 0)).2) := by
  induction items generalizing s n with
  | nil => simp
  | cons a items ih =>
    have hright : (step (s, 0) a) = ((step (s, 0) a).1, (step (s, 0) a).2) := rfl
    rw [List.foldl_cons, List.foldl_cons, h.count, ih, hright, ih _ (step (s, 0) a).2,
      Int.add_assoc]

end Counting

theorem counts_addMember : Counts addMember where
  count set n member := by
    simp only [addMember]
    split <;> simp
  nonneg set member := by
    simp only [addMember]
    split <;> simp

theorem counts_remMember : Counts remMember where
  count set n member := by
    simp only [remMember]
    split <;> simp
  nonneg set member := by
    simp only [remMember]
    split <;> simp

theorem counts_zremMember : Counts zremMember where
  count scores n member := by
    simp only [zremMember]
    split <;> simp
  nonneg scores member := by
    simp only [zremMember]
    split <;> simp

theorem counts_zaddMember : Counts zaddMember where
  count scores n item := by
    simp only [zaddMember]
    split <;> simp
  nonneg scores item := by
    simp only [zaddMember]
    split <;> simp

/-- A command with a list does what it does with the first item, and then with the others. -/
structure Splits {α : Type} (f : Option Value → List Text → Option Value × Int)
    (args : α → List Text) : Prop where
  ne_nil : ∀ item, args item ≠ []
  split : ∀ value item items, items ≠ [] →
    f value (args item ++ items.flatMap args) =
      ((f (f value (args item)).1 (items.flatMap args)).1,
        (f value (args item)).2 + (f (f value (args item)).1 (items.flatMap args)).2)
  nonneg : ∀ value item, 0 ≤ (f value (args item)).2

theorem onKey_cons {f : Option Value → List Text → Option Value × Int} {args : List Text}
    (hargs : args ≠ []) (db : Database) (key : Text) :
    onKey f db (key :: args) =
      (Function.update db key (f (db key) args).1, (f (db key) args).2) := by
  obtain ⟨arg, args, rfl⟩ := List.exists_cons_of_ne_nil hargs
  rfl

section

variable {α : Type} {f : Option Value → List Text → Option Value × Int} {args : α → List Text}

theorem Splits.flatMap_ne_nil (h : Splits f args) {items : List α} (hitems : items ≠ []) :
    items.flatMap args ≠ [] := by
  obtain ⟨item, items, rfl⟩ := List.exists_cons_of_ne_nil hitems
  rw [List.flatMap_cons]
  exact List.append_ne_nil_of_left_ne_nil (h.ne_nil item) _

/-- The command with all items is the command with each of them. -/
theorem onKey_eq_each (h : Splits f args) (key : Text) (items : List α) (db : Database) :
    onKey f db (cstr key :: items.flatMap args) =
      ((each f key args items db).1, (each f key args items db).2.sum) := by
  induction items generalizing db with
  | nil => rfl
  | cons item items ih =>
    by_cases hitems : items = []
    · subst hitems
      simp [each]
    · have hfirst := onKey_cons (h.ne_nil item) db (cstr key) (f := f)
      have hne := h.flatMap_ne_nil hitems
      rw [List.flatMap_cons, onKey_cons (List.append_ne_nil_of_left_ne_nil (h.ne_nil item) _),
        h.split _ _ _ hitems]
      simp only [each, hfirst, List.sum_cons]
      have hrest := ih (Function.update db (cstr key) (f (db (cstr key)) (args item)).1)
      rw [onKey_cons hne] at hrest
      simp only [Function.update_self, Function.update_idem, Prod.mk.injEq] at hrest
      rw [← hrest.1, ← hrest.2]

theorem each_nonneg (h : Splits f args) (key : Text) (items : List α) (db : Database) :
    ∀ n ∈ (each f key args items db).2, 0 ≤ n := by
  induction items generalizing db with
  | nil => exact fun n hn => absurd hn List.not_mem_nil
  | cons item items ih =>
    simp only [each, List.forall_mem_cons]
    refine ⟨?_, ih _⟩
    rw [onKey_cons (h.ne_nil item)]
    exact h.nonneg _ _

end

theorem eachCode_eq {counts : List Int} (h : ∀ n ∈ counts, 0 ≤ n) :
    eachCode counts = countCode counts.sum := by
  have hsum : counts.sum < 1 ↔ ∀ n ∈ counts, n < 1 := by
    induction counts with
    | nil => simp
    | cons n counts ih =>
      obtain ⟨hn, hcounts⟩ := List.forall_mem_cons.mp h
      have hrest := List.sum_nonneg hcounts
      rw [List.sum_cons, List.forall_mem_cons, ← ih hcounts]
      omega
  have hany : counts.any (countCode · = .ok) ↔ ¬ counts.sum < 1 := by
    simp [hsum, countCode]
  simp only [eachCode, hany]
  by_cases hlt : counts.sum < 1
  · simp [countCode, hlt]
  · simp [countCode, hlt]

/-- A command that gets the members as they are. -/
abbrev single (value : Text) : List Text := [value]

theorem flatMap_single (values : List Text) : values.flatMap single = values :=
  List.flatMap_singleton' values

theorem splits_saddValue : Splits saddValue single where
  ne_nil _ := List.cons_ne_nil _ _
  split value member members _ := by
    rw [flatMap_single]
    match value with
    | none | some (.set set) =>
      simp only [saddValue, List.singleton_append, List.foldl_cons, List.foldl_nil]
      rw [counts_addMember.foldl_count]
    | some (.str _) | some (.zset _) | some .other => simp [saddValue]
  nonneg value member := by
    match value with
    | none | some (.set set) =>
      simp only [saddValue, List.foldl_cons, List.foldl_nil]
      exact counts_addMember.nonneg _ member
    | some (.str _) | some (.zset _) | some .other => simp [saddValue]

theorem splits_sremValue : Splits sremValue single where
  ne_nil _ := List.cons_ne_nil _ _
  split value member members _ := by
    rw [flatMap_single]
    match value with
    | some (.set set) =>
      simp only [sremValue, List.singleton_append, List.foldl_cons, List.foldl_nil]
      obtain ⟨rest, n⟩ := remMember (set, 0) member
      rw [counts_remMember.foldl_count]
      cases rest with
      | nil =>
        have hfixed : ∀ member, remMember ([], 0) member = ([], 0) := fun _ => rfl
        simp [List.foldl_fixed' hfixed, ofSet]
      | cons first rest => rfl
    | none | some (.str _) | some (.zset _) | some .other => simp [sremValue]
  nonneg value member := by
    match value with
    | some (.set set) => exact counts_remMember.nonneg set member
    | none | some (.str _) | some (.zset _) | some .other => simp [sremValue]

theorem splits_zremValue : Splits zremValue single where
  ne_nil _ := List.cons_ne_nil _ _
  split value member members _ := by
    rw [flatMap_single]
    match value with
    | some (.zset scores) =>
      simp only [zremValue, List.singleton_append, List.foldl_cons, List.foldl_nil]
      obtain ⟨rest, n⟩ := zremMember (scores, 0) member
      rw [counts_zremMember.foldl_count]
      cases rest with
      | nil =>
        have hfixed : ∀ member, zremMember ([], 0) member = ([], 0) := fun _ => rfl
        simp [List.foldl_fixed' hfixed, ofScores]
      | cons first rest => rfl
    | none | some (.str _) | some (.set _) | some .other => simp [zremValue]
  nonneg value member := by
    match value with
    | some (.zset scores) => exact counts_zremMember.nonneg scores member
    | none | some (.str _) | some (.set _) | some .other => simp [zremValue]

theorem zaddItems_cons (value : Option Value) (item : Text × Int32) (items : List (Text × Int32)) :
    zaddItems value (item :: items) =
      ((zaddItems (zaddItems value [item]).1 items).1,
        (zaddItems value [item]).2 + (zaddItems (zaddItems value [item]).1 items).2) := by
  match value with
  | none | some (.zset scores) =>
    simp only [zaddItems, List.foldl_cons, List.foldl_nil]
    rw [counts_zaddMember.foldl_count]
  | some (.str _) | some (.set _) | some .other => simp [zaddItems]

theorem splits_zadd {redis : Redis} (hdoc : redis.Documented) : Splits redis.zadd scoreArgs where
  ne_nil _ := List.cons_ne_nil _ _
  split value item items hitems := by
    have hone : redis.zadd value (scoreArgs item) = zaddItems value [item] := by
      simpa using hdoc.zadd value [item] (List.cons_ne_nil _ _)
    rw [← List.flatMap_cons, hdoc.zadd _ _ (List.cons_ne_nil _ _), hone, hdoc.zadd _ _ hitems,
      zaddItems_cons]
  nonneg value item := by
    have hone : redis.zadd value (scoreArgs item) = zaddItems value [item] := by
      simpa using hdoc.zadd value [item] (List.cons_ne_nil _ _)
    rw [hone]
    match value with
    | none | some (.zset scores) =>
      simp only [zaddItems, List.foldl_cons, List.foldl_nil]
      exact counts_zaddMember.nonneg _ item
    | some (.str _) | some (.set _) | some .other => simp [zaddItems]

/-- A text that hiredis reads as one argument. -/
def IsWord (text : Text) : Prop := text ≠ [] ∧ 32 ∉ text ∧ 37 ∉ text ∧ 0 ∉ text

instance (text : Text) : Decidable (IsWord text) := inferInstanceAs (Decidable (_ ∧ _))

/-- The keys and members that go through a text unchanged. Without members it is enough that the
key does not bring some along. -/
def PlainList (key : Text) (values : List Text) : Prop :=
  if values = [] then 37 ∉ key ∧ (CText.words (cstr key)).length ≤ 1
  else IsWord key ∧ ∀ value ∈ values, IsWord value

namespace ListOp

/-- The lists on which the two forms agree: each member is a word that survives the text of the
command. -/
def Plain : ListOp → Prop
  | sadd key values => PlainList key values
  | srem key values => PlainList key values
  | zrem key values => PlainList key values
  | zadd key values => PlainList key (values.map Prod.fst) ∧
    ∀ item ∈ values, (decimal item.2.toInt).length + 1 + item.1.length ≤ 127
  | mget keys => keys ≠ [] ∧ ∀ key ∈ keys, IsWord key

/-- The values that `mget` finds have no NUL, at which one of the forms would cut them. -/
def TextValues (db : Database) : ListOp → Prop
  | mget keys => ∀ key ∈ keys, ∀ text ∈ textAt db key, 0 ∉ text
  | _ => True

end ListOp

theorem cstr_of_not_mem {text : Text} (h : 0 ∉ text) : cstr text = text := by
  refine List.takeWhile_eq_self_iff.mpr fun c hc => ?_
  rw [decide_eq_true_eq]
  rintro rfl
  exact h hc

theorem cstr_append_of_not_mem {front : Text} (h : 0 ∉ front) (rest : Text) :
    cstr (front ++ rest) = front ++ cstr rest := by
  refine List.takeWhile_append_of_pos fun c hc => ?_
  rw [decide_eq_true_eq]
  rintro rfl
  exact h hc

theorem listText_eq (name : String) (key : Text) (values : List Text) :
    listText name key values = [32].intercalate (CText.bytes name :: key :: values) := by
  rw [CText.intercalate_cons]
  simp [listText, blanked]

theorem not_mem_intercalate {c : UInt8} (hc : c ≠ 32) {parts : List Text}
    (h : ∀ p ∈ parts, c ∉ p) : c ∉ [32].intercalate parts := by
  cases parts with
  | nil => exact List.not_mem_nil
  | cons p parts =>
    obtain ⟨hp, hparts⟩ := List.forall_mem_cons.mp h
    rw [CText.intercalate_cons, List.mem_append, not_or]
    refine ⟨hp, ?_⟩
    rw [List.mem_flatMap]
    rintro ⟨q, hq, hmem⟩
    obtain rfl | hmem := List.mem_cons.mp hmem
    · exact hc rfl
    · exact hparts q hq hmem

theorem format_words {redis : Redis} (hdoc : redis.Documented) {parts : List Text}
    (hne : parts ≠ []) (h : ∀ p ∈ parts, IsWord p) :
    redis.format (cstr ([32].intercalate parts)) = some parts := by
  have hnul : 0 ∉ [32].intercalate parts := not_mem_intercalate (by decide) fun p hp => (h p hp).2.2.2
  have hpercent : 37 ∉ [32].intercalate parts :=
    not_mem_intercalate (by decide) fun p hp => (h p hp).2.2.1
  rw [cstr_of_not_mem hnul, hdoc.format _ hpercent, CText.words_intercalate hne]
  exact fun p hp => ⟨(h p hp).1, (h p hp).2.1⟩

/-- What a command finds when a plain list was given to it as a text. -/
theorem withText_plain {redis : Redis} (hdoc : redis.Documented) {name : String}
    (hname : IsWord (CText.bytes name)) {key : Text} {values : List Text}
    (h : PlainList key values) (f : Option Value → List Text → Option Value × Int)
    (db : Database) (reply : Database × Int → Done) :
    withText redis (listText name key values) db (fun args => reply (onKey f db args)) =
      reply (onKey f db (cstr key :: values)) := by
  unfold PlainList at h
  split at h
  · next hvalues =>
    subst hvalues
    have htext : cstr (listText name key []) = CText.bytes name ++ 32 :: cstr key := by
      have hfront : 0 ∉ CText.bytes name ++ [32] := by
        rw [List.mem_append, not_or]
        exact ⟨hname.2.2.2, by decide⟩
      have hlist : listText name key [] = (CText.bytes name ++ [32]) ++ key := by
        simp [listText, blanked]
      rw [hlist, cstr_append_of_not_mem hfront, List.append_assoc]
      rfl
    have hpercent : 37 ∉ CText.bytes name ++ 32 :: cstr key := by
      rw [List.mem_append, List.mem_cons, not_or, not_or]
      exact ⟨hname.2.2.1, by decide, fun hmem => h.1 (List.takeWhile_subset _ hmem)⟩
    rw [withText, htext, hdoc.format _ hpercent, CText.words_append_cons hname.1 hname.2.1]
    dsimp only [List.tail_cons]
    match hwords : CText.words (cstr key), h.2 with
    | [], _ => rfl
    | [word], _ => rfl
    | _ :: _ :: _, hlen => simp at hlen
  · have hparts : ∀ p ∈ CText.bytes name :: key :: values, IsWord p := by
      simp only [List.forall_mem_cons]
      exact ⟨hname, h.1, h.2⟩
    rw [withText, listText_eq, format_words hdoc (List.cons_ne_nil _ _) hparts]
    dsimp only [List.tail_cons]
    rw [cstr_of_not_mem h.1.2.2.2]

theorem plainList_iff {key : Text} {values : List Text} (h : values ≠ []) :
    PlainList key values ↔ IsWord key ∧ ∀ value ∈ values, IsWord value := by
  rw [PlainList, if_neg h]

theorem PlainList.isWord {key : Text} {values : List Text} (h : PlainList key values) :
    ∀ value ∈ values, IsWord value := by
  unfold PlainList at h
  split at h
  · next hvalues =>
    rw [hvalues]
    exact fun _ hvalue => absurd hvalue List.not_mem_nil
  · exact h.2

theorem isWord_decimal (n : Int) : IsWord (decimal n) := by
  have hdigits : ∀ m : Nat, IsWord (CText.bytes (toString m)) := by
    intro m
    refine ⟨?_, ?_, ?_, ?_⟩
    · exact CText.bytes_toString_ne_nil m
    all_goals
      intro hmem
      exact absurd (CText.mem_bytes_toString hmem).1 (by decide)
  cases n with
  | ofNat m => exact hdigits m
  | negSucc m =>
    rw [decimal, CText.bytes_toString_negSucc]
    obtain ⟨-, hblank, hpercent, hnul⟩ := hdigits (m + 1)
    exact ⟨List.cons_ne_nil _ _, by simpa using hblank, by simpa using hpercent, by simpa using hnul⟩

theorem length_decimal_le (score : Int32) : (decimal score.toInt).length ≤ 11 := by
  have hlt := score.toInt_lt
  have hle := score.le_toInt
  cases hn : score.toInt with
  | ofNat m =>
    rw [hn] at hlt
    rw [decimal]
    change (CText.bytes (toString m)).length ≤ 11
    rw [CText.length_bytes_toString, Nat.length_toDigits_le_iff (by decide) (by decide)]
    simp only [Int.ofNat_eq_natCast] at hlt
    omega
  | negSucc m =>
    rw [hn] at hle
    rw [decimal, CText.bytes_toString_negSucc, List.length_cons, CText.length_bytes_toString]
    refine Nat.succ_le_succ ?_
    rw [Nat.length_toDigits_le_iff (by decide) (by decide)]
    omega

theorem each_congr {α : Type} {f : Option Value → List Text → Option Value × Int} {key : Text}
    {args args' : α → List Text} {items : List α} (h : ∀ item ∈ items, args item = args' item)
    (db : Database) : each f key args items db = each f key args' items db := by
  induction items generalizing db with
  | nil => rfl
  | cons item items ih =>
    obtain ⟨hitem, hitems⟩ := List.forall_mem_cons.mp h
    simp only [each, hitem, ih hitems]

theorem onKey_plain {f : Option Value → List Text → Option Value × Int} (hf : Splits f single)
    {key : Text} {values : List Text} (h : PlainList key values) (db : Database) :
    onKey f db (cstr key :: values) =
      ((each f key (fun value => [cstr value]) values db).1,
        (each f key (fun value => [cstr value]) values db).2.sum) := by
  have hcongr : ∀ value ∈ values, [cstr value] = single value := fun value hvalue => by
    rw [cstr_of_not_mem (h.isWord value hvalue).2.2.2]
  rw [each_congr hcongr, ← onKey_eq_each hf, flatMap_single]

theorem eachCode_each {α : Type} {f : Option Value → List Text → Option Value × Int}
    {args args' : α → List Text} (hf : Splits f args) {key : Text} {items : List α}
    (h : ∀ item ∈ items, args' item = args item) (db : Database) :
    eachCode (each f key args' items db).2 = countCode (each f key args' items db).2.sum := by
  rw [each_congr h]
  exact eachCode_eq (each_nonneg hf key items db)

theorem mgetLoop_eq_getEach {db : Database} {keys : List Text} (hkeys : ∀ key ∈ keys, IsWord key)
    (htext : ∀ key ∈ keys, ∀ text ∈ textAt db key, 0 ∉ text) :
    mgetLoop db keys keys (fun _ => none) = some (getEach db keys) := by
  suffices hmap : ∀ map : Text → Option Text, mgetLoop db keys keys map =
      some (keys.foldl (fun map key =>
        match textAt db (cstr key) with
        | some text => Function.update map key (some text)
        | none => map) map) from hmap _
  induction keys with
  | nil => exact fun map => rfl
  | cons key keys ih =>
    obtain ⟨hkey, hkeys⟩ := List.forall_mem_cons.mp hkeys
    obtain ⟨hvalue, htext⟩ := List.forall_mem_cons.mp htext
    have hrest := ih hkeys htext
    intro map
    rw [List.foldl_cons, cstr_of_not_mem hkey.2.2.2]
    match hget : textAt db key with
    | some text =>
      simp only [mgetLoop, hget]
      rw [cstr_of_not_mem (hvalue text hget), hrest]
    | none =>
      simp only [mgetLoop, hget]
      rw [hrest]

theorem mgetText_eq {keys : List Text} (h : keys ≠ []) :
    mgetText keys = [32].intercalate (CText.bytes "MGET" :: keys) := by
  obtain ⟨key, keys, rfl⟩ := List.exists_cons_of_ne_nil h
  have hname : CText.bytes "MGET " = CText.bytes "MGET" ++ [32] := by decide
  rw [mgetText, CText.intercalate_cons, CText.intercalate_cons, hname]
  simp

/-- A member with its score as `zadd` writes it. -/
def scoreText (item : Text × Int32) : Text := (decimal item.2.toInt ++ 32 :: cstr item.1).take 127

theorem zaddText_eq (key : Text) (values : List (Text × Int32)) :
    zaddText key (values.map fun item => (item.1, item.2.toInt)) =
      listText "ZADD" key (values.map scoreText) := by
  rw [zaddText, listText, List.map_map]
  rfl

theorem blanked_flatMap {α : Type} (parts : α → List Text) (texts : α → Text) {items : List α}
    (h : ∀ item ∈ items, 32 :: texts item = blanked (parts item)) :
    blanked (items.map texts) = blanked (items.flatMap parts) := by
  induction items with
  | nil => rfl
  | cons item items ih =>
    obtain ⟨hitem, hitems⟩ := List.forall_mem_cons.mp h
    have hcons : blanked (texts item :: items.map texts) =
        (32 :: texts item) ++ blanked (items.map texts) := rfl
    rw [List.map_cons, List.flatMap_cons, hcons, hitem, ih hitems, blanked, blanked, blanked,
      List.flatMap_append]

theorem zaddText_plain {key : Text} {values : List (Text × Int32)}
    (hvalues : ∀ item ∈ values, IsWord item.1)
    (hfits : ∀ item ∈ values, (decimal item.2.toInt).length + 1 + item.1.length ≤ 127) :
    listText "ZADD" key (values.map scoreText) = listText "ZADD" key (values.flatMap scoreArgs) := by
  rw [listText, listText, blanked_flatMap scoreArgs scoreText]
  intro item hitem
  have hfit := hfits item hitem
  rw [scoreText, cstr_of_not_mem (hvalues item hitem).2.2.2, List.take_of_length_le]
  · simp [blanked, scoreArgs]
  · simp only [List.length_append, List.length_cons]
    omega

theorem plainList_scoreArgs {key : Text} {values : List (Text × Int32)}
    (h : PlainList key (values.map Prod.fst)) : PlainList key (values.flatMap scoreArgs) := by
  cases values with
  | nil => exact h
  | cons item values =>
    have hwords := h.isWord
    have hkey := ((plainList_iff (List.cons_ne_nil _ _)).mp h).1
    have hne : (item :: values).flatMap scoreArgs ≠ [] := List.cons_ne_nil _ _
    refine (plainList_iff hne).mpr ⟨hkey, ?_⟩
    intro text htext
    obtain ⟨item', hitem', htext⟩ := List.mem_flatMap.mp htext
    obtain rfl | htext := List.mem_cons.mp htext
    · exact isWord_decimal _
    · rw [List.mem_singleton.mp htext]
      exact hwords _ (List.mem_map_of_mem hitem')

/-- On plain lists the form for a list does what the form for one member does. -/
theorem list_eq_singles {redis : Redis} (hdoc : redis.Documented) {op : ListOp} {db : Database}
    (hplain : op.Plain) (htext : op.TextValues db) : op.list redis db = op.singles redis db := by
  cases op with
  | sadd key values =>
    simp only [ListOp.list, ListOp.singles]
    rw [withText_plain hdoc (by decide) hplain saddValue db fun result =>
      { code := some .ok, db := result.1, count := result.2 }, onKey_plain splits_saddValue hplain]
  | srem key values =>
    simp only [ListOp.list, ListOp.singles]
    rw [withText_plain hdoc (by decide) hplain sremValue db fun result =>
      { code := some .ok, db := result.1, count := result.2 }, onKey_plain splits_sremValue hplain]
  | zrem key values =>
    have hcongr : ∀ value ∈ values, [cstr value] = single value := fun value hvalue => by
      rw [cstr_of_not_mem (hplain.isWord value hvalue).2.2.2]
    simp only [ListOp.list, ListOp.singles]
    rw [withText_plain hdoc (by decide) hplain zremValue db fun result =>
      { code := some (countCode result.2), db := result.1 }, onKey_plain splits_zremValue hplain,
      eachCode_each splits_zremValue hcongr]
  | zadd key values =>
    obtain ⟨hlist, hfits⟩ := hplain
    have hwords : ∀ item ∈ values, IsWord item.1 := fun item hitem =>
      hlist.isWord _ (List.mem_map_of_mem hitem)
    have hcongr : ∀ item ∈ values, scoreArgs (cstr item.1, item.2) = scoreArgs item :=
      fun item hitem => by rw [cstr_of_not_mem (hwords item hitem).2.2.2]
    simp only [ListOp.list, ListOp.singles]
    rw [zaddText_eq, zaddText_plain hwords hfits,
      withText_plain hdoc (by decide) (plainList_scoreArgs hlist) redis.zadd db fun result =>
        { code := some (countCode result.2), db := result.1 },
      eachCode_each (splits_zadd hdoc) hcongr, each_congr hcongr, onKey_eq_each (splits_zadd hdoc)]
  | mget keys =>
    obtain ⟨hne, hkeys⟩ := hplain
    have hparts : ∀ p ∈ CText.bytes "MGET" :: keys, IsWord p :=
      List.forall_mem_cons.mpr ⟨by decide, hkeys⟩
    simp only [ListOp.list, ListOp.singles, if_neg hne, withText]
    rw [mgetText_eq hne, format_words hdoc (List.cons_ne_nil _ _) hparts]
    obtain ⟨key, keys, rfl⟩ := List.exists_cons_of_ne_nil hne
    dsimp only [List.tail_cons, mgetReply]
    rw [mgetLoop_eq_getEach hkeys htext]

end Cache

end ImServer
