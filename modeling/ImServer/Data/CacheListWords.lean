import Mathlib.Data.List.MinMax
import Mathlib.Data.List.Nodup
import ImServer.Data.CacheLists

/-!
# When the forms for lists and for one member agree

The form for a list agrees with the form for one member on plain lists. Here the other direction
is shown: from a database on which the command shows what its arguments were, every member is one
of the words of the text, and `zadd` has cut none of them. Both directions are then put together,
and a client that splits texts at blanks shows that they are met.
-/

namespace ImServer

namespace Cache

/-- No member is a percent sign or ends a C string early, and there are members; those of `zadd`
are the keys of a map. -/
def ListOp.Proper : ListOp → Prop
  | sadd key values => values ≠ [] ∧ ∀ text ∈ key :: values, 37 ∉ text ∧ 0 ∉ text
  | srem key values => values ≠ [] ∧ ∀ text ∈ key :: values, 37 ∉ text ∧ 0 ∉ text
  | zrem key values => values ≠ [] ∧ ∀ text ∈ key :: values, 37 ∉ text ∧ 0 ∉ text
  | zadd key values => values ≠ [] ∧ (values.map Prod.fst).Nodup ∧
    ∀ text ∈ key :: values.map Prod.fst, 37 ∉ text ∧ 0 ∉ text
  | mget keys => keys ≠ [] ∧ ∀ text ∈ keys, 37 ∉ text ∧ 0 ∉ text

/-- The arguments that hiredis makes of a list: words, whatever the members are. -/
theorem format_listText {redis : Redis} (hdoc : redis.Documented) (name : String)
    (hname : IsWord (CText.bytes name)) {key : Text} {values : List Text}
    (h : ∀ text ∈ key :: values, 37 ∉ text ∧ 0 ∉ text) :
    redis.format (cstr (listText name key values)) =
      some (CText.bytes name :: CText.words (key ++ blanked values)) := by
  have hbytes : ∀ c : UInt8, c ≠ 32 → c ∉ CText.bytes name →
      (∀ text ∈ key :: values, c ∉ text) → c ∉ listText name key values := by
    intro c hc hcname htexts
    rw [listText_eq]
    exact not_mem_intercalate hc (List.forall_mem_cons.mpr ⟨hcname, htexts⟩)
  have hnul := hbytes 0 (by decide) hname.2.2.2 fun text htext => (h text htext).2
  have hpercent := hbytes 37 (by decide) hname.2.2.1 fun text htext => (h text htext).1
  rw [cstr_of_not_mem hnul, hdoc.format _ hpercent, listText, List.append_assoc, List.cons_append,
    CText.words_append_cons hname.1 hname.2.1]

theorem isWord_of_mem_words {text word : Text} (h : 37 ∉ word ∧ 0 ∉ word)
    (hword : word ∈ CText.words text) : IsWord word := by
  obtain ⟨hne, hblank⟩ := CText.ne_nil_of_mem_words hword
  exact ⟨hne, hblank, h.1, h.2⟩

/-- A value on which a command shows what its arguments were: it changes it, and the same change
needs the same members. -/
structure Shows (f : Option Value → List Text → Option Value × Int) (value : Option Value)
    (args members : List Text) : Prop where
  changes : (f value args).1 ≠ value
  needs : ∀ args', (f value args').1 = (f value args).1 → members ⊆ args'

theorem mem_args_of_agree {α : Type} {f : Option Value → List Text → Option Value × Int}
    {args : α → List Text} (hf : Splits f args) {key : Text} (hkey : 0 ∉ key) {items : List α}
    (hitems : items ≠ []) {value : Option Value} {members : List Text}
    (hshows : Shows f value (items.flatMap args) members) {found : List Text}
    (h : ∀ db, (onKey f db found).1 = (each f key args items db).1) :
    key ∈ found ∧ members ⊆ found := by
  have hdb := congrFun (h (Function.update (fun _ => none) key value)) key
  have heach := congrArg Prod.fst
    (onKey_eq_each hf key items (Function.update (fun _ => none) key value))
  rw [cstr_of_not_mem hkey, onKey_cons (hf.flatMap_ne_nil hitems)] at heach
  rw [← congrFun heach key] at hdb
  simp only [Function.update_self] at hdb
  match found with
  | [] | [_] =>
    simp only [onKey, Function.update_self] at hdb
    exact absurd hdb.symm hshows.changes
  | key' :: arg :: rest =>
    by_cases hsame : key' = key
    · subst hsame
      simp only [onKey, Function.update_self] at hdb
      exact ⟨List.mem_cons_self, fun m hm => List.mem_cons_of_mem _ (hshows.needs _ hdb hm)⟩
    · simp only [onKey, Function.update_of_ne (Ne.symm hsame), Function.update_self] at hdb
      exact absurd hdb.symm hshows.changes

theorem mem_foldl_addMember {members set : List Text} {n : Int} {member : Text} :
    member ∈ (members.foldl addMember (set, n)).1 ↔ member ∈ set ∨ member ∈ members := by
  induction members generalizing set n with
  | nil => simp
  | cons m members ih =>
    rw [List.foldl_cons, addMember]
    split
    · next hm =>
      rw [ih, List.mem_cons]
      constructor
      · exact Or.imp_right Or.inr
      · rintro (h | rfl | h)
        · exact .inl h
        · exact .inl hm
        · exact .inr h
    · rw [ih, List.mem_cons, List.mem_append, List.mem_singleton, or_assoc]

theorem mem_foldl_remMember {members set : List Text} {n : Int} {member : Text} :
    member ∈ (members.foldl remMember (set, n)).1 ↔ member ∈ set ∧ member ∉ members := by
  induction members generalizing set n with
  | nil => simp
  | cons m members ih =>
    rw [List.foldl_cons, remMember]
    split
    · rw [ih, List.mem_filter, List.mem_cons, not_or, decide_eq_true_eq, and_assoc]
    · next hm =>
      rw [ih, List.mem_cons, not_or]
      refine and_congr_right fun hmem => ?_
      have hne : member ≠ m := fun heq => hm (heq ▸ hmem)
      simp [hne]

theorem mem_foldl_zremMember {members : List Text} {scores : List (Text × Int32)} {n : Int}
    {member : Text} :
    member ∈ (members.foldl zremMember (scores, n)).1.map Prod.fst ↔
      member ∈ scores.map Prod.fst ∧ member ∉ members := by
  induction members generalizing scores n with
  | nil => simp
  | cons m members ih =>
    rw [List.foldl_cons, zremMember]
    split
    · rw [ih, List.mem_cons, not_or, ← and_assoc]
      refine and_congr_left fun _ => ?_
      simp only [List.mem_map, List.mem_filter, decide_eq_true_eq]
      constructor
      · rintro ⟨item, ⟨hitem, hne⟩, rfl⟩
        exact ⟨⟨item, hitem, rfl⟩, hne⟩
      · rintro ⟨⟨item, hitem, rfl⟩, hne⟩
        exact ⟨item, ⟨hitem, hne⟩, rfl⟩
    · next hm =>
      rw [ih, List.mem_cons, not_or]
      refine and_congr_right fun hmem => ?_
      have hne : member ≠ m := fun heq => hm (heq ▸ hmem)
      simp [hne]

theorem mem_foldl_zaddMember {items scores : List (Text × Int32)} {n : Int} {member : Text} :
    member ∈ (items.foldl zaddMember (scores, n)).1.map Prod.fst ↔
      member ∈ scores.map Prod.fst ∨ member ∈ items.map Prod.fst := by
  induction items generalizing scores n with
  | nil => simp
  | cons item items ih =>
    rw [List.foldl_cons, zaddMember]
    split
    · next hm =>
      have hfst : (scores.map fun other => if other.1 = item.1 then item else other).map Prod.fst =
          scores.map Prod.fst := by
        rw [List.map_map]
        refine List.map_congr_left fun other _ => ?_
        dsimp only [Function.comp_apply]
        split
        · next heq => exact heq.symm
        · rfl
      rw [ih, hfst, List.map_cons, List.mem_cons]
      constructor
      · exact Or.imp_right Or.inr
      · rintro (h | rfl | h)
        · exact .inl h
        · exact .inl hm
        · exact .inr h
    · rw [ih, List.map_cons, List.mem_cons, List.map_append, List.mem_append, List.map_singleton,
        List.mem_singleton, or_assoc]

theorem ofSet_eq_none {set : List Text} : ofSet set = none ↔ set = [] := by
  cases set with
  | nil => simp [ofSet]
  | cons member set => simp [ofSet]

theorem ofScores_eq_none {scores : List (Text × Int32)} : ofScores scores = none ↔ scores = [] := by
  cases scores with
  | nil => simp [ofScores]
  | cons item scores => simp [ofScores]

theorem shows_saddValue (values : List Text) : Shows saddValue none values values where
  changes := by simp [saddValue]
  needs args' h member hmember := by
    simp only [saddValue, Option.some.injEq, Value.set.injEq] at h
    have hmem : member ∈ (values.foldl addMember ([], 0)).1 := mem_foldl_addMember.mpr (.inr hmember)
    rw [← h] at hmem
    exact (mem_foldl_addMember.mp hmem).resolve_left List.not_mem_nil

theorem sremValue_all {values args : List Text} :
    (sremValue (some (.set values)) args).1 = none ↔ values ⊆ args := by
  simp only [sremValue, ofSet_eq_none, List.eq_nil_iff_forall_not_mem, mem_foldl_remMember, not_and,
    not_not]
  rfl

theorem zremValue_all {values args : List Text} :
    (zremValue (some (.zset (values.map fun value => (value, 0)))) args).1 = none ↔
      values ⊆ args := by
  simp only [zremValue, ofScores_eq_none]
  rw [← List.map_eq_nil_iff (f := Prod.fst), List.eq_nil_iff_forall_not_mem]
  simp only [mem_foldl_zremMember, not_and, not_not, List.map_map]
  have hid : values.map (Prod.fst ∘ fun value => (value, (0 : Int32))) = values := List.map_id values
  rw [hid]
  rfl

theorem shows_sremValue (values : List Text) :
    Shows sremValue (some (.set values)) values values where
  changes := by
    rw [sremValue_all.mpr (List.Subset.refl _)]
    simp
  needs args' h := by
    rw [sremValue_all.mpr (List.Subset.refl _)] at h
    exact sremValue_all.mp h

theorem shows_zremValue (values : List Text) :
    Shows zremValue (some (.zset (values.map fun value => (value, 0)))) values values where
  changes := by
    rw [zremValue_all.mpr (List.Subset.refl _)]
    simp
  needs args' h := by
    rw [zremValue_all.mpr (List.Subset.refl _)] at h
    exact zremValue_all.mp h

theorem member_zaddItems {items : List (Text × Int32)} {member : Text} :
    Value.member (zaddItems none items).1 member ↔ member ∈ items.map Prod.fst := by
  simp only [zaddItems, Value.member, mem_foldl_zaddMember]
  simp

theorem shows_zadd {redis : Redis} (hdoc : redis.Documented) {values : List (Text × Int32)}
    (hne : values ≠ []) :
    Shows redis.zadd none (values.flatMap scoreArgs) (values.map Prod.fst) where
  changes := by
    rw [hdoc.zadd _ _ hne]
    simp [zaddItems]
  needs args' h member hmember := by
    rw [hdoc.zadd _ _ hne] at h
    have hmem := member_zaddItems.mpr hmember
    rw [← h] at hmem
    exact hdoc.zadd_new _ _ hmem

theorem plainList_of_agree {f : Option Value → List Text → Option Value × Int}
    (hf : Splits f single) {key : Text} {values : List Text} (hne : values ≠ [])
    (htexts : ∀ text ∈ key :: values, 37 ∉ text ∧ 0 ∉ text) {value : Option Value}
    (hshows : Shows f value values values)
    (h : ∀ db, (onKey f db (CText.words (key ++ blanked values))).1 =
      (each f key (fun value => [cstr value]) values db).1) : PlainList key values := by
  obtain ⟨hkey, hvalues⟩ := List.forall_mem_cons.mp htexts
  have hcongr : ∀ value ∈ values, [cstr value] = single value := fun value hvalue => by
    rw [cstr_of_not_mem (hvalues value hvalue).2]
  have hagree : ∀ db, (onKey f db (CText.words (key ++ blanked values))).1 =
      (each f key single values db).1 := fun db => by rw [h, each_congr hcongr]
  rw [← flatMap_single values] at hshows
  obtain ⟨hkeyMem, hmem⟩ := mem_args_of_agree hf hkey.2 hne hshows hagree
  rw [flatMap_single] at hmem
  exact (plainList_iff hne).mpr ⟨isWord_of_mem_words hkey hkeyMem,
    fun value hvalue => isWord_of_mem_words (hvalues value hvalue) (hmem hvalue)⟩

/-- A member as it comes out of the buffer, which has room for 127 characters with its score and a
blank. -/
def cut (item : Text × Int32) : Text × Int32 :=
  (item.1.take (126 - (decimal item.2.toInt).length), item.2)

theorem scoreText_eq {item : Text × Int32} (h : 0 ∉ item.1) :
    scoreText item = decimal item.2.toInt ++ 32 :: (cut item).1 := by
  have hlen := length_decimal_le item.2
  have hrest : 127 - (decimal item.2.toInt).length = 126 - (decimal item.2.toInt).length + 1 := by
    omega
  rw [scoreText, cstr_of_not_mem h, List.take_append, List.take_of_length_le (by omega), hrest,
    List.take_succ_cons]
  rfl

theorem isWord_cut {item : Text × Int32} (h : IsWord item.1) : IsWord (cut item).1 := by
  have hlen := length_decimal_le item.2
  have hsub : ∀ c, c ∉ item.1 → c ∉ (cut item).1 := fun c hc hmem => hc (List.mem_of_mem_take hmem)
  refine ⟨?_, hsub 32 h.2.1, hsub 37 h.2.2.1, hsub 0 h.2.2.2⟩
  rw [cut, ne_eq, List.take_eq_nil_iff, not_or]
  exact ⟨by omega, h.1⟩

/-- If the cut members are the members, none was cut: a longest of those that are cut would be
the front of a longer one. -/
theorem fits_of_cut_members {values : List (Text × Int32)} (hnodup : (values.map Prod.fst).Nodup)
    (h : ∀ item ∈ values, item.1 ∈ values.map fun item => (cut item).1) :
    ∀ item ∈ values, (decimal item.2.toInt).length + 1 + item.1.length ≤ 127 := by
  by_contra hbad
  push Not at hbad
  obtain ⟨first, hfirst, hlong⟩ := hbad
  let long := values.filter fun item => 127 < (decimal item.2.toInt).length + 1 + item.1.length
  have hne : long ≠ [] := List.ne_nil_of_mem (List.mem_filter.mpr ⟨hfirst, decide_eq_true hlong⟩)
  obtain ⟨longest, hlongest⟩ := Option.ne_none_iff_exists'.mp
    (mt (List.argmax_eq_none (f := fun item : Text × Int32 => item.1.length)).mp hne)
  obtain ⟨hmem, hcut⟩ := List.mem_filter.mp (List.argmax_mem hlongest)
  rw [decide_eq_true_eq] at hcut
  obtain ⟨item, hitem, heq⟩ := List.mem_map.mp (h longest hmem)
  have hlen := length_decimal_le item.2
  have hcutlen : (cut item).1.length = longest.1.length := by rw [heq]
  rw [cut, List.length_take] at hcutlen
  by_cases hfits : (decimal item.2.toInt).length + 1 + item.1.length ≤ 127
  · rw [cut, List.take_of_length_le (by omega)] at heq
    obtain rfl := List.inj_on_of_nodup_map hnodup hitem hmem heq
    omega
  · have hle : item.1.length ≤ longest.1.length :=
      List.le_of_mem_argmax (f := fun item : Text × Int32 => item.1.length)
        (List.mem_filter.mpr ⟨hitem, decide_eq_true (by omega)⟩) hlongest
    omega

theorem plain_zadd_of_agree {redis : Redis} (hdoc : redis.Documented) {key : Text}
    {values : List (Text × Int32)} (hproper : (ListOp.zadd key values).Proper)
    (h : ∀ db, (onKey redis.zadd db (CText.words (key ++ blanked (values.map scoreText)))).1 =
      (each redis.zadd key (fun item => scoreArgs (cstr item.1, item.2)) values db).1) :
    (ListOp.zadd key values).Plain := by
  obtain ⟨hne, hnodup, htexts⟩ := hproper
  obtain ⟨hkey, hmembers⟩ := List.forall_mem_cons.mp htexts
  have hmember : ∀ item ∈ values, 37 ∉ item.1 ∧ 0 ∉ item.1 := fun item hitem =>
    hmembers _ (List.mem_map_of_mem hitem)
  have hcongr : ∀ item ∈ values, scoreArgs (cstr item.1, item.2) = scoreArgs item :=
    fun item hitem => by rw [cstr_of_not_mem (hmember item hitem).2]
  have hagree : ∀ db, (onKey redis.zadd db
      (CText.words (key ++ blanked (values.map scoreText)))).1 =
      (each redis.zadd key scoreArgs values db).1 := fun db => by rw [h, each_congr hcongr]
  obtain ⟨hkeyMem, hmem⟩ := mem_args_of_agree (splits_zadd hdoc) hkey.2 hne (shows_zadd hdoc hne) hagree
  have hkeyWord := isWord_of_mem_words hkey hkeyMem
  have hwords : ∀ item ∈ values, IsWord item.1 := fun item hitem =>
    isWord_of_mem_words (hmember item hitem) (hmem (List.mem_map_of_mem hitem))
  have hplain : PlainList key (values.map Prod.fst) := by
    refine (plainList_iff (by simpa using hne)).mpr ⟨hkeyWord, ?_⟩
    exact List.forall_mem_map.mpr hwords
  refine ⟨hplain, fits_of_cut_members hnodup ?_⟩
  -- The members are words, so that the arguments are those of the cut members.
  have hcutne : values.map cut ≠ [] := by simpa using hne
  have htext : key ++ blanked (values.map scoreText) =
      [32].intercalate (key :: (values.map cut).flatMap scoreArgs) := by
    rw [CText.intercalate_cons, List.flatMap_map, blanked_flatMap (fun item => scoreArgs (cut item))
      scoreText]
    · rfl
    · intro item hitem
      rw [scoreText_eq (hmember item hitem).2]
      simp [blanked, scoreArgs, cut]
  have hfound : CText.words (key ++ blanked (values.map scoreText)) =
      key :: (values.map cut).flatMap scoreArgs := by
    rw [htext, CText.words_intercalate (List.cons_ne_nil _ _)]
    have hcut : PlainList key ((values.map cut).map Prod.fst) := by
      refine (plainList_iff (by simpa using hne)).mpr ⟨hkeyWord, ?_⟩
      rw [List.map_map]
      exact List.forall_mem_map.mpr fun item hitem => isWord_cut (hwords item hitem)
    have hargs := (plainList_scoreArgs hcut).isWord
    exact List.forall_mem_cons.mpr ⟨⟨hkeyWord.1, hkeyWord.2.1⟩,
      fun p hp => ⟨(hargs p hp).1, (hargs p hp).2.1⟩⟩
  -- On an empty database both forms make the same sorted set.
  have hdb := congrFun (hagree fun _ => none) key
  have heach := congrArg Prod.fst (onKey_eq_each (splits_zadd hdoc) key values fun _ => none)
  rw [cstr_of_not_mem hkey.2] at heach
  rw [hfound, ← congrFun heach key, onKey_cons ((splits_zadd hdoc).flatMap_ne_nil hcutne),
    onKey_cons ((splits_zadd hdoc).flatMap_ne_nil hne)] at hdb
  simp only [Function.update_self, hdoc.zadd _ _ hcutne, hdoc.zadd _ _ hne] at hdb
  intro item hitem
  have hnew := member_zaddItems.mpr (List.mem_map_of_mem hitem)
  rw [← hdb, member_zaddItems, List.map_map] at hnew
  exact hnew

theorem mgetLoop_eq_some {db : Database} {args keys : List Text} {start map : Text → Option Text}
    (h : mgetLoop db args keys start = some map) {key text : Text} (hkey : map key = some text) :
    start key = some text ∨ ∃ arg ∈ args, ∃ found ∈ textAt db arg, cstr found = text := by
  induction args generalizing keys start with
  | nil =>
    simp only [mgetLoop, Option.some.injEq] at h
    rw [h]
    exact .inl hkey
  | cons arg args ih =>
    have hlater : ∀ start' : Text → Option Text,
      (start' key = some text ∨ ∃ arg ∈ args, ∃ found ∈ textAt db arg,
        cstr found = text) → (start' key = some text → start key = some text ∨
          ∃ found ∈ textAt db arg, cstr found = text) →
        start key = some text ∨ ∃ a ∈ arg :: args, ∃ found ∈ textAt db a, cstr found = text := by
      rintro start' (hstart | ⟨a, ha, hfound⟩) hfirst
      · exact (hfirst hstart).imp_right fun hfound => ⟨arg, List.mem_cons_self, hfound⟩
      · exact .inr ⟨a, List.mem_cons_of_mem _ ha, hfound⟩
    cases keys with
    | nil =>
      rw [mgetLoop] at h
      split at h
      · cases h
      · exact hlater start (ih h) .inl
    | cons key' keys =>
      rw [mgetLoop] at h
      split at h
      · next found hfound =>
        refine hlater _ (ih h) fun hupdated => ?_
        by_cases hsame : key = key'
        · subst hsame
          rw [Function.update_self, Option.some.injEq] at hupdated
          exact .inr ⟨found, hfound, hupdated⟩
        · rw [Function.update_of_ne hsame] at hupdated
          exact .inl hupdated
      · exact hlater start (ih h) .inl

/-- If each key has itself as its value, the map of all `get` has them. -/
theorem getEach_self {db : Database} {keys : List Text} (hnul : ∀ key ∈ keys, 0 ∉ key)
    (hdb : ∀ key ∈ keys, textAt db key = some key) {key : Text} (hkey : key ∈ keys) :
    getEach db keys key = some key := by
  refine Run.foldl_sets (fun map : Text → Option Text => map key) (fun key' : Text => key' = key)
    ?_ ?_ hkey rfl fun _ => none
  · rintro map key' hkey' rfl
    simp [cstr_of_not_mem (hnul _ hkey'), hdb _ hkey']
  · intro map key' hkey' hne
    simp [cstr_of_not_mem (hnul _ hkey'), hdb _ hkey', Function.update_of_ne (Ne.symm hne)]

theorem plain_mget_of_agree {redis : Redis} (hdoc : redis.Documented) {keys : List Text}
    (hproper : (ListOp.mget keys).Proper)
    (h : ∀ db, (ListOp.mget keys).TextValues db →
      (ListOp.mget keys).list redis db = (ListOp.mget keys).singles redis db) :
    (ListOp.mget keys).Plain := by
  obtain ⟨hne, hkeys⟩ := hproper
  let db : Database := fun key => if key ∈ keys then some (.str key) else none
  have htextAt : ∀ key text, textAt db key = some text → key ∈ keys ∧ text = key := by
    intro key text htext
    by_cases hkey : key ∈ keys
    · simp only [textAt, db, if_pos hkey, Option.some.injEq] at htext
      exact ⟨hkey, htext.symm⟩
    · simp [textAt, db, hkey] at htext
  have hvalues : (ListOp.mget keys).TextValues db := by
    intro key _ text htext
    obtain ⟨hkey, rfl⟩ := htextAt key text htext
    exact (hkeys _ hkey).2
  have hagree := h db hvalues
  have hformat : redis.format (cstr (mgetText keys)) =
      some (CText.bytes "MGET" :: CText.words ([32].intercalate keys)) := by
    have hword : IsWord (CText.bytes "MGET") := by decide
    have htext : mgetText keys = CText.bytes "MGET" ++ 32 :: [32].intercalate keys := by
      have hname : CText.bytes "MGET " = CText.bytes "MGET" ++ [32] := by decide
      rw [mgetText, hname, List.append_assoc]
      rfl
    have hbytes : ∀ c : UInt8, c ≠ 32 → c ∉ CText.bytes "MGET" → (∀ key ∈ keys, c ∉ key) →
        c ∉ mgetText keys := by
      intro c hc hcname hckeys
      rw [mgetText_eq hne]
      exact not_mem_intercalate hc (List.forall_mem_cons.mpr ⟨hcname, hckeys⟩)
    have hnul := hbytes 0 (by decide) (by decide) fun key hkey => (hkeys key hkey).2
    have hpercent := hbytes 37 (by decide) (by decide) fun key hkey => (hkeys key hkey).1
    rw [cstr_of_not_mem hnul, hdoc.format _ hpercent, htext, CText.words_append_cons hword.1 hword.2.1]
  simp only [ListOp.list, ListOp.singles, if_neg hne, withText, hformat, List.tail_cons] at hagree
  refine ⟨hne, fun key hkey => ?_⟩
  have hself : getEach db keys key = some key :=
    getEach_self (fun key hkey => (hkeys key hkey).2) (fun key hkey => by simp [textAt, db, hkey]) hkey
  cases hwords : CText.words ([32].intercalate keys) with
  | nil =>
    rw [hwords] at hagree
    exact absurd (congrArg Done.code hagree) (by simp [mgetReply])
  | cons arg args =>
    rw [hwords] at hagree
    simp only [mgetReply] at hagree
    split at hagree
    · next map hmap =>
      have hmapKey : map key = some key := by
        rw [← hself]
        exact congrFun (congrArg Done.map hagree) key
      obtain hstart | ⟨arg', harg', found, hfound, hcut⟩ := mgetLoop_eq_some hmap hmapKey
      · cases hstart
      · obtain ⟨hmem, rfl⟩ := htextAt arg' found hfound
        rw [cstr_of_not_mem (hkeys _ hmem).2] at hcut
        subst hcut
        rw [← hwords] at harg'
        exact isWord_of_mem_words (hkeys _ hkey) harg'
    · exact absurd (congrArg Done.code hagree) (by simp)

theorem plain_of_list_eq_singles {redis : Redis} (hdoc : redis.Documented) {op : ListOp}
    (hproper : op.Proper)
    (h : ∀ db, op.TextValues db → op.list redis db = op.singles redis db) : op.Plain := by
  cases op with
  | sadd key values =>
    refine plainList_of_agree splits_saddValue hproper.1 hproper.2 (shows_saddValue values) ?_
    intro db
    have hdb := congrArg Done.db (h db trivial)
    simpa [ListOp.list, ListOp.singles, withText, format_listText hdoc "SADD" (by decide)
      hproper.2] using hdb
  | srem key values =>
    refine plainList_of_agree splits_sremValue hproper.1 hproper.2 (shows_sremValue values) ?_
    intro db
    have hdb := congrArg Done.db (h db trivial)
    simpa [ListOp.list, ListOp.singles, withText, format_listText hdoc "SREM" (by decide)
      hproper.2] using hdb
  | zrem key values =>
    refine plainList_of_agree splits_zremValue hproper.1 hproper.2 (shows_zremValue values) ?_
    intro db
    have hdb := congrArg Done.db (h db trivial)
    simpa [ListOp.list, ListOp.singles, withText, format_listText hdoc "ZREM" (by decide)
      hproper.2] using hdb
  | zadd key values =>
    refine plain_zadd_of_agree hdoc hproper fun db => ?_
    have htexts : ∀ text ∈ key :: values.map scoreText, 37 ∉ text ∧ 0 ∉ text := by
      obtain ⟨-, -, htexts⟩ := hproper
      obtain ⟨hkey, hmembers⟩ := List.forall_mem_cons.mp htexts
      refine List.forall_mem_cons.mpr ⟨hkey, List.forall_mem_map.mpr fun item hitem => ?_⟩
      have hmember := hmembers _ (List.mem_map_of_mem hitem)
      have hdecimal := isWord_decimal item.2.toInt
      have hcut : ∀ c : UInt8, c ≠ 32 → c ∉ decimal item.2.toInt → c ∉ item.1 →
        c ∉ scoreText item := by
        intro c hc hcdecimal hcmember hmem
        rw [scoreText_eq hmember.2, List.mem_append, List.mem_cons] at hmem
        rcases hmem with hmem | rfl | hmem
        · exact hcdecimal hmem
        · exact hc rfl
        · exact hcmember (List.mem_of_mem_take hmem)
      exact ⟨hcut 37 (by decide) hdecimal.2.2.1 hmember.1, hcut 0 (by decide) hdecimal.2.2.2 hmember.2⟩
    have hdb := congrArg Done.db (h db trivial)
    simpa [ListOp.list, ListOp.singles, withText, zaddText_eq,
      format_listText hdoc "ZADD" (by decide) htexts] using hdb
  | mget keys => exact plain_mget_of_agree hdoc hproper h

/-- The number that a text of digits stands for. -/
def readNat (text : Text) : Nat := Nat.ofDigitChars 10 (text.map fun b => Char.ofNat b.toNat) 0

def readInt (text : Text) : Int :=
  if text.head? = some 45 then -readNat text.tail else readNat text

theorem readNat_bytes (n : Nat) : readNat (CText.bytes (toString n)) = n := by
  have hchars : ∀ chars : List Char, (∀ c ∈ chars, c.isDigit = true) →
      (chars.flatMap String.utf8EncodeChar).map (fun b => Char.ofNat b.toNat) = chars := by
    intro chars hdigits
    induction chars with
    | nil => rfl
    | cons c chars ih =>
      obtain ⟨hc, hdigits⟩ := List.forall_mem_cons.mp hdigits
      obtain ⟨b, hb, -, -, hchar⟩ := CText.utf8EncodeChar_of_isDigit hc
      rw [List.flatMap_cons, hb, List.map_append, ih hdigits, List.map_singleton, hchar]
      rfl
  rw [readNat, CText.bytes, Nat.toString_eq_repr, Nat.toList_repr,
    hchars _ fun c => CText.isDigit_of_mem_toDigits]
  exact Nat.ofDigitChars_ten_toDigits

theorem readInt_decimal (n : Int) : readInt (decimal n) = n := by
  cases n with
  | ofNat m =>
    have hsign : (CText.bytes (toString m)).head? ≠ some 45 := by
      intro hhead
      exact absurd (CText.mem_bytes_toString (List.mem_of_mem_head? hhead)).1 (by decide)
    change readInt (CText.bytes (toString m)) = m
    rw [readInt, if_neg hsign, readNat_bytes]
  | negSucc m =>
    rw [decimal, CText.bytes_toString_negSucc, readInt, List.head?_cons, if_pos rfl, List.tail_cons,
      readNat_bytes]
    rfl

/-- Arguments that are scores in decimal and members in turn. -/
def readItems : List Text → Option (List (Text × Int32))
  | [] => some []
  | [_] => none
  | score :: member :: rest =>
    if decimal (readInt score) = score then
      (readItems rest).map ((member, Int32.ofInt (readInt score)) :: ·)
    else none

theorem readItems_scoreArgs (items : List (Text × Int32)) :
    readItems (items.flatMap scoreArgs) = some items := by
  induction items with
  | nil => rfl
  | cons item items ih =>
    rw [List.flatMap_cons]
    simp only [scoreArgs, List.cons_append, List.nil_append, readItems, readInt_decimal, if_true, ih,
      Option.map_some, Int32.ofInt_toInt]

theorem mem_of_readItems {args : List Text} {items : List (Text × Int32)}
    (h : readItems args = some items) : ∀ item ∈ items, item.1 ∈ args := by
  induction args using readItems.induct generalizing items with
  | case1 =>
    cases h
    exact fun _ hitem => absurd hitem List.not_mem_nil
  | case2 => cases h
  | case3 score member rest hscore ih =>
    rw [readItems, if_pos hscore] at h
    obtain ⟨others, hothers, rfl⟩ := Option.map_eq_some_iff.mp h
    refine List.forall_mem_cons.mpr ⟨by simp, fun item hitem => ?_⟩
    exact List.mem_cons_of_mem _ (List.mem_cons_of_mem _ (ih hothers item hitem))
  | case4 score member rest hscore =>
    rw [readItems, if_neg hscore] at h
    cases h

/-- Texts are split at blanks, and `ZADD` takes decimal scores only. -/
def plainRedis : Redis where
  format text := some (CText.words text)
  zadd value args :=
    match readItems args with
    | some (item :: items) => zaddItems value (item :: items)
    | _ => (value, 0)

theorem plainRedis_documented : plainRedis.Documented where
  format _ _ := rfl
  zadd value items hitems := by
    obtain ⟨item, items, rfl⟩ := List.exists_cons_of_ne_nil hitems
    simp only [plainRedis, readItems_scoreArgs]
  zadd_new args member hmember := by
    simp only [plainRedis] at hmember
    split at hmember
    · next item items hread =>
      obtain ⟨item', hitem', rfl⟩ := List.mem_map.mp (member_zaddItems.mp hmember)
      exact mem_of_readItems hread item' hitem'
    · exact absurd hmember id

/-- On plain lists the two forms have the same effect and result, whatever the database is; and
among the lists whose texts have no percent sign and no NUL, these are all on which they do. -/
theorem list_refines_singles {redis : Redis} (hdoc : redis.Documented) (op : ListOp) :
    (∀ db, op.Plain → op.TextValues db → op.list redis db = op.singles redis db) ∧
      (op.Proper → (∀ db, op.TextValues db → op.list redis db = op.singles redis db) → op.Plain) :=
  ⟨fun _ => list_eq_singles hdoc, plain_of_list_eq_singles hdoc⟩

/-- Two members are added to a new set. -/
theorem list_refines_singles_two :
    (ListOp.sadd [107] [[97], [98]]).list plainRedis (fun _ => none) =
      (ListOp.sadd [107] [[97], [98]]).singles plainRedis fun _ => none :=
  (list_refines_singles plainRedis_documented (.sadd [107] [[97], [98]])).1 (fun _ => none)
    ((plainList_iff (by decide)).mpr (by decide)) trivial

/-- A member with a blank is added as two members. -/
theorem list_differs_blank :
    ¬ ∀ (redis : Redis), redis.Documented → ∀ (op : ListOp) (db : Database),
      op.list redis db = op.singles redis db := by
  intro h
  have hcount := congrArg Done.count
    (h plainRedis plainRedis_documented (.sadd [107] [[97, 32, 98]]) fun _ => none)
  exact absurd hcount (by decide +kernel)

end Cache

end ImServer
