import ImServer.Lib.Collection
import ImServer.Msg.Acknowledgement
import Mathlib.Algebra.Order.Ring.Nat

/-!
# Inserting many documents

`InsertMany` of database/mongoDbColl.cpp cuts its list into chunks of at most 1000 documents, each of
which is written with `insert_many`. `InsertOne` does not write an invalid document, and replaces the
one with the same key. The collection has a unique index on receiver, kind and message id, and
`insert_many` stops at the first duplicate.

The number of chunks is an `int`, and so is the place where a chunk begins, for which an overflow is
undefined; the index in a chunk is a `uint32_t`.
-/

namespace ImServer

namespace Msg

/-- `ToDoc`; what is written has no field `bPulled`. -/
def OfflineMsg.toDoc (doc : OfflineMsg) : OfflineMsg := { doc with bPulled := 0 }

namespace CMongoDbColl

/-- `InsertOne`, while mongo takes what is written. -/
def insertOne (store : Store) (doc : OfflineMsg) : Store :=
  (insertOfflineMsg {} doc.toDoc store).getD store

def insertOnes (store : Store) (docs : List OfflineMsg) : Store := docs.foldl insertOne store

def maxMsgNum : Nat := 1000

/-- The number of chunks, which is computed as a `size_t`. -/
def loops (size : Nat) : Int := (((size + maxMsgNum - 1) % 2 ^ 64 / maxMsgNum : Nat) : Int).bmod (2 ^ 32)

/-- `curLoop * MAXMSGNUM`, if it does not overflow. -/
def start (curLoop : Nat) : Option Nat :=
  if curLoop * maxMsgNum < 2 ^ 31 then some (curLoop * maxMsgNum) else none

/-- The positions of a chunk. -/
def positions (size curLoop : Nat) : Option (List Nat) :=
  (start curLoop).map fun start =>
    ((List.range maxMsgNum).map fun index => (index + start) % 2 ^ 32).takeWhile (· < size)

def chunk {α : Type} (docs : List α) (curLoop : Nat) : Option (List α) :=
  (positions docs.length curLoop).map (List.filterMap (docs[·]?))

/-- The chunks from `curLoop` on, of which there are still some. It returns at the first that fails;
none if the behaviour is undefined. -/
def insertChunks (docs : List OfflineMsg) : Nat → Nat → Store → Option (Bool × Store)
  | 0, _, store => some (true, store)
  | left + 1, curLoop, store => do
    let documents ← chunk (docs.map OfflineMsg.toDoc) curLoop
    match Collection.insertUnique OfflineMsg.entry store documents with
    | (false, store) => some (false, store)
    | (true, store) => insertChunks docs left (curLoop + 1) store

/-- `InsertMany`: chunk by chunk, until one of them fails or all are written. -/
def insertMany (docs : List OfflineMsg) (store : Store) : Option (Bool × Store) :=
  insertChunks docs (loops docs.length).toNat 0 store

/-- Every position lies in one chunk, and no chunk is too long. -/
structure Covered (size : Nat) : Prop where
  once : ∀ i < size, ∃! curLoop : Nat, curLoop < loops size ∧ ∃ is,
    positions size curLoop = some is ∧ i ∈ is
  length_le : ∀ curLoop is, positions size curLoop = some is → is.length ≤ 1000

def SamePending (store store' : Store) : Prop :=
  ∀ doc : OfflineMsg, doc.bPulled = 0 → (doc ∈ store ↔ doc ∈ store')

/-- The documents in front of the first duplicate are valid, and the last valid document of each key
is one of them or is stored as it is. -/
structure Agree (store : Store) (docs : List OfflineMsg) : Prop where
  valid : ∀ doc, Collection.Inserted OfflineMsg.entry store docs doc → doc.isValid
  last : ∀ doc, Collection.IsLast OfflineMsg.entry docs doc → doc.isValid →
    doc ∈ store ∨ Collection.Inserted OfflineMsg.entry store docs doc

section Chunks

variable {α : Type} {size curLoop left : Nat} {docs : List α}

/-- The longest list whose chunks can all be computed. -/
def maxSize : Nat := 2147484000

theorem loops_of_le (h : size ≤ maxSize) : loops size = ((size + 999) / 1000 : Nat) := by
  have hmax : maxMsgNum = 1000 := rfl
  rw [maxSize] at h
  have hlt : size + maxMsgNum - 1 < 2 ^ 64 := by omega
  have hvalue : (size + maxMsgNum - 1) % 2 ^ 64 / maxMsgNum = (size + 999) / 1000 := by
    rw [Nat.mod_eq_of_lt hlt, hmax]
    omega
  have hfit : (((size + 999) / 1000 : Nat) : Int).bmod (2 ^ 32) = ((size + 999) / 1000 : Nat) :=
    Int.bmod_eq_of_le (by omega) (by omega)
  exact (congrArg (fun n : Nat => (n : Int).bmod (2 ^ 32)) hvalue).trans hfit

theorem positions_eq (hstart : curLoop * maxMsgNum < 2 ^ 31) :
    positions size curLoop =
      some ((List.range' (curLoop * maxMsgNum) maxMsgNum).takeWhile (· < size)) := by
  have hmax : maxMsgNum = 1000 := rfl
  have hindices : ((List.range maxMsgNum).map fun index => (index + curLoop * maxMsgNum) % 2 ^ 32) =
      List.range' (curLoop * maxMsgNum) maxMsgNum := by
    rw [List.range'_eq_map_range]
    refine List.map_congr_left fun index hindex => ?_
    have hlt : index < maxMsgNum := List.mem_range.mp hindex
    have hsum : index + curLoop * maxMsgNum < 2 ^ 32 := by omega
    rw [Nat.mod_eq_of_lt hsum, Nat.add_comm]
  rw [positions, start, if_pos hstart, Option.map_some, hindices]

theorem mem_takeWhile_range' {first n i : Nat} :
    i ∈ (List.range' first n).takeWhile (· < size) ↔ first ≤ i ∧ i < first + n ∧ i < size := by
  induction n generalizing first with
  | zero =>
    rw [List.range'_zero, List.takeWhile_nil]
    simp only [List.not_mem_nil, false_iff]
    omega
  | succ n ih =>
    rw [List.range'_succ, List.takeWhile_cons]
    split
    · next hfirst =>
      have hfirst : first < size := of_decide_eq_true hfirst
      rw [List.mem_cons, ih]
      omega
    · next hfirst =>
      have hfirst : ¬ first < size := fun h => hfirst (decide_eq_true h)
      simp only [List.not_mem_nil, false_iff]
      omega

theorem filterMap_takeWhile_range' (docs : List α) (first n : Nat) :
    ((List.range' first n).takeWhile (· < docs.length)).filterMap (docs[·]?) =
      (docs.drop first).take n := by
  induction n generalizing first with
  | zero => rfl
  | succ n ih =>
    rw [List.range'_succ, List.takeWhile_cons]
    split
    · next hfirst =>
      have hfirst : first < docs.length := of_decide_eq_true hfirst
      rw [List.filterMap_cons, List.getElem?_eq_getElem hfirst, ih,
        List.drop_eq_getElem_cons hfirst,
        List.take_succ_cons]
    · next hfirst =>
      have hfirst : docs.length ≤ first := Nat.le_of_not_lt fun h => hfirst (decide_eq_true h)
      rw [List.drop_eq_nil_of_le hfirst, List.take_nil, List.filterMap_nil]

/-- A position lies in the chunk that its number gives, unless that chunk overflows. -/
theorem mem_positions_iff {i : Nat} :
    (∃ is, positions size curLoop = some is ∧ i ∈ is) ↔
      curLoop * maxMsgNum < 2 ^ 31 ∧ curLoop * maxMsgNum ≤ i ∧ i < curLoop * maxMsgNum + maxMsgNum ∧
        i < size := by
  by_cases hstart : curLoop * maxMsgNum < 2 ^ 31
  · rw [positions_eq hstart]
    simp only [Option.some.injEq, exists_eq_left', mem_takeWhile_range', hstart, true_and]
  · rw [positions, start, if_neg hstart]
    simp only [Option.map_none, reduceCtorEq, false_and, exists_false, hstart]

theorem length_positions_le {is : List Nat}
    (h : positions size curLoop = some is) : is.length ≤ 1000 := by
  obtain ⟨start, -, rfl⟩ := Option.map_eq_some_iff.mp h
  refine Nat.le_trans (List.takeWhile_sublist _).length_le ?_
  rw [List.length_map, List.length_range]
  exact Nat.le_refl _

/-- The chunks cover a list that is not too long, and no other. -/
theorem covered_iff : Covered size ↔ size ≤ maxSize := by
  have hmax : maxMsgNum = 1000 := rfl
  constructor
  · intro h
    by_contra hsize
    have hlt : maxSize < size := Nat.lt_of_not_le hsize
    obtain ⟨curLoop, ⟨-, hmem⟩, -⟩ := h.once maxSize hlt
    obtain ⟨hstart, hle, hbound, -⟩ := mem_positions_iff.mp hmem
    rw [maxSize] at hbound
    rw [hmax] at hstart hbound
    omega
  · intro hsize
    refine ⟨fun i hi => ?_, fun _ _ => length_positions_le⟩
    have hloops := loops_of_le hsize
    rw [maxSize] at hsize
    refine ⟨i / 1000, ⟨by omega, mem_positions_iff.mpr ?_⟩, ?_⟩
    · rw [hmax]
      omega
    · rintro curLoop ⟨-, hmem⟩
      obtain ⟨-, hle, hbound, -⟩ := mem_positions_iff.mp hmem
      rw [hmax] at hle hbound
      omega

theorem chunk_eq (hstart : curLoop * maxMsgNum < 2 ^ 31) :
    chunk docs curLoop = some ((docs.drop (curLoop * maxMsgNum)).take maxMsgNum) := by
  rw [chunk, positions_eq hstart, Option.map_some]
  exact congrArg some (filterMap_takeWhile_range' docs _ _)

end Chunks

section Lists

variable {store : Store} {docs : List OfflineMsg}

theorem insertChunks_eq {left curLoop : Nat} (hstart : (left + curLoop) * maxMsgNum ≤ 2 ^ 31 + 352) :
    insertChunks docs left curLoop store = some (Collection.insertUnique OfflineMsg.entry store
      (((docs.map OfflineMsg.toDoc).drop (curLoop * maxMsgNum)).take (left * maxMsgNum))) := by
  induction left generalizing curLoop store with
  | zero => rw [insertChunks, Nat.zero_mul, List.take_zero, Collection.insertUnique]
  | succ left ih =>
    have hmax : maxMsgNum = 1000 := rfl
    have hchunk : curLoop * maxMsgNum < 2 ^ 31 := by
      simp only [hmax] at hstart ⊢
      omega
    have hrest : (left + (curLoop + 1)) * maxMsgNum ≤ 2 ^ 31 + 352 := by
      rwa [Nat.add_comm curLoop, ← Nat.add_assoc]
    have hsplit : ((docs.map OfflineMsg.toDoc).drop (curLoop * maxMsgNum)).take
          ((left + 1) * maxMsgNum) =
        ((docs.map OfflineMsg.toDoc).drop (curLoop * maxMsgNum)).take maxMsgNum ++
          ((docs.map OfflineMsg.toDoc).drop ((curLoop + 1) * maxMsgNum)).take (left * maxMsgNum) := by
      rw [Nat.add_mul left, Nat.one_mul, Nat.add_comm (left * maxMsgNum), List.take_add,
        List.drop_drop,
        Nat.add_mul curLoop, Nat.one_mul]
    rw [insertChunks, chunk_eq hchunk, hsplit, Collection.insertUnique_append]
    simp only [Option.bind_eq_bind, Option.bind_some]
    cases hfirst : Collection.insertUnique OfflineMsg.entry store
        (((docs.map OfflineMsg.toDoc).drop (curLoop * maxMsgNum)).take maxMsgNum) with
    | mk ok store' =>
      cases ok
      · rfl
      · exact ih hrest

theorem insertMany_of_le (h : docs.length ≤ maxSize) :
    insertMany docs store =
      some (Collection.insertUnique OfflineMsg.entry store (docs.map OfflineMsg.toDoc)) := by
  have hmax : maxMsgNum = 1000 := rfl
  have hloops : (loops docs.length).toNat = (docs.length + 999) / 1000 := by
    rw [loops_of_le h, Int.toNat_natCast]
  rw [maxSize] at h
  have hall : docs.length ≤ (docs.length + 999) / 1000 * maxMsgNum := by
    rw [hmax]
    omega
  have hstart : ((docs.length + 999) / 1000 + 0) * maxMsgNum ≤ 2 ^ 31 + 352 := by
    rw [hmax]
    omega
  rw [insertMany, hloops, insertChunks_eq hstart, Nat.zero_mul, List.drop_zero, List.take_of_length_le]
  rw [List.length_map]
  exact hall

theorem isValid_entry {doc doc' : OfflineMsg}
    (h : doc.entry = doc'.entry) : doc.isValid = doc'.isValid := by
  obtain ⟨-, hcmdId, hmsgId⟩ := EntryKey.mk.inj h
  rw [OfflineMsg.isValid, OfflineMsg.isValid, hcmdId, hmsgId]

/-- The key of a valid document finds the documents with its entry. -/
theorem keyDoc_eq {doc : OfflineMsg} (h : doc.isValid) (doc' : OfflineMsg) :
    doc.keyDoc doc' = decide (doc'.entry = doc.entry) := by
  obtain ⟨hcmdId, hmsgId⟩ := isValid_eq_true.mp h
  rw [Bool.eq_iff_iff, OfflineMsg.keyDoc, offlineMsgKeys, decide_eq_true_iff, OfflineMsg.entry,
    OfflineMsg.entry, EntryKey.mk.injEq]
  simp only [hcmdId, hmsgId, decide_false, Bool.false_or, Bool.and_eq_true, decide_eq_true_eq]
  exact ⟨fun h => ⟨h.1.1, h.2, h.1.2⟩, fun h => ⟨⟨h.1, h.2.2⟩, h.2.1⟩⟩

theorem insertOne_eq (store : Store) (doc : OfflineMsg) :
    insertOne store doc =
      if doc.isValid then
        Collection.replaceOne (fun doc' => decide (doc'.entry = doc.toDoc.entry)) doc.toDoc store
      else store := by
  have hvalid : doc.toDoc.isValid = doc.isValid := rfl
  rw [insertOne, insertOfflineMsg, Bool.and_true, hvalid]
  split
  · next h =>
    rw [Option.getD_some, replaceOne_eq]
    exact congrArg (fun filter => Collection.replaceOne filter doc.toDoc store)
      (funext fun doc' => keyDoc_eq h doc')
  · rfl

theorem insertOnes_eq (store : Store) (docs : List OfflineMsg) :
    insertOnes store docs = Collection.upsertAll OfflineMsg.entry store
      ((docs.map OfflineMsg.toDoc).filter OfflineMsg.isValid) := by
  induction docs generalizing store with
  | nil => rfl
  | cons doc docs ih =>
    rw [insertOnes, List.foldl_cons, ← insertOnes, ih, insertOne_eq, List.map_cons, List.filter_cons]
    have hvalid : doc.toDoc.isValid = doc.isValid := rfl
    rw [hvalid]
    split <;> rfl

theorem mem_insertOnes (h : (store.map OfflineMsg.entry).Nodup) {doc : OfflineMsg} :
    doc ∈ insertOnes store docs ↔
      Collection.IsLast OfflineMsg.entry (docs.map OfflineMsg.toDoc) doc ∧ doc.isValid ∨
        doc ∈ store ∧
          doc.entry ∉ ((docs.map OfflineMsg.toDoc).filter OfflineMsg.isValid).map OfflineMsg.entry := by
  rw [insertOnes_eq, Collection.mem_upsertAll h, Collection.isLast_filter fun _ _ => isValid_entry]

/-- With unique keys, the documents of a store and those that are inserted have different entries. -/
theorem entry_ne_of_inserted {news : List OfflineMsg} {doc doc' : OfflineMsg}
    (h : Collection.Inserted OfflineMsg.entry store news doc) (hstore : doc' ∈ store) :
    doc'.entry ≠ doc.entry := by
  obtain ⟨before, after, -, hnodup⟩ := h
  rw [List.map_append] at hnodup
  have hdisjoint := List.disjoint_of_nodup_append hnodup
  exact fun heq => hdisjoint (List.mem_map_of_mem hstore)
    (heq ▸ List.mem_map_of_mem (List.mem_append_right _ (List.mem_singleton_self doc)))

theorem samePending_iff (h : (store.map OfflineMsg.entry).Nodup) :
    SamePending (Collection.insertUnique OfflineMsg.entry store (docs.map OfflineMsg.toDoc)).2
        (insertOnes store docs) ↔
      Agree store (docs.map OfflineMsg.toDoc) := by
  have hpulled : ∀ doc ∈ docs.map OfflineMsg.toDoc, doc.bPulled = 0 := by
    intro doc hdoc
    obtain ⟨old, -, rfl⟩ := List.mem_map.mp hdoc
    rfl
  constructor
  · intro hsame
    refine ⟨fun doc hins => ?_, fun doc hlast hvalid => ?_⟩
    · have hmem : doc ∈ docs.map OfflineMsg.toDoc := hins.mem
      obtain ⟨-, hvalid⟩ | ⟨hstore, -⟩ := (mem_insertOnes h).mp
        ((hsame doc (hpulled doc hmem)).mp ((Collection.mem_insertUnique h).mpr (.inr hins)))
      · exact hvalid
      · exact absurd rfl (entry_ne_of_inserted hins hstore)
    · exact (Collection.mem_insertUnique h).mp ((hsame doc (hpulled doc hlast.mem)).mpr
        ((mem_insertOnes h).mpr (.inl ⟨hlast, hvalid⟩)))
  · intro hagree doc hpending
    rw [Collection.mem_insertUnique h, mem_insertOnes h]
    constructor
    · rintro (hstore | hins)
      · by_cases hkey : doc.entry ∈
            ((docs.map OfflineMsg.toDoc).filter OfflineMsg.isValid).map OfflineMsg.entry
        · obtain ⟨last, hlast, heq⟩ := Collection.exists_isLast hkey
          obtain ⟨hlast, hvalid⟩ := (Collection.isLast_filter fun _ _ => isValid_entry).mp hlast
          obtain hold | hins := hagree.last last hlast hvalid
          · obtain rfl : last = doc := List.inj_on_of_nodup_map h hold hstore heq
            exact .inl ⟨hlast, hvalid⟩
          · exact absurd heq.symm (entry_ne_of_inserted hins hstore)
        · exact .inr ⟨hstore, hkey⟩
      · have hvalid : doc.isValid := hagree.valid doc hins
        have hkey : doc.entry ∈ (docs.map OfflineMsg.toDoc).map OfflineMsg.entry :=
          List.mem_map_of_mem hins.mem
        obtain ⟨last, hlast, heq⟩ := Collection.exists_isLast hkey
        obtain hold | hlastIns := hagree.last last hlast ((isValid_entry heq).trans hvalid)
        · exact absurd heq (entry_ne_of_inserted hins hold)
        · obtain rfl : last = doc := hlastIns.eq_of_key hins heq
          exact .inl ⟨hlast, hvalid⟩
    · rintro (⟨hlast, hvalid⟩ | ⟨hstore, -⟩)
      · exact hagree.last doc hlast hvalid
      · exact .inl hstore

end Lists

/-- `InsertMany` covers a list and leaves the pending documents of the inserts one by one exactly if
the list is not too long and both ways agree on it. -/
theorem insertMany_insertOnes {store : Store} {docs : List OfflineMsg}
    (h : (store.map OfflineMsg.entry).Nodup) :
    (Covered docs.length ∧ ∃ ok store', insertMany docs store = some (ok, store') ∧
        SamePending store' (insertOnes store docs)) ↔
      docs.length ≤ maxSize ∧ Agree store (docs.map OfflineMsg.toDoc) := by
  rw [covered_iff]
  refine and_congr_right fun hlength => ?_
  rw [insertMany_of_le hlength, ← samePending_iff h]
  simp only [Option.some.injEq, Prod.ext_iff]
  constructor
  · rintro ⟨ok, store', ⟨-, rfl⟩, hsame⟩
    exact hsame
  · exact fun hsame => ⟨_, _, ⟨rfl, rfl⟩, hsame⟩

/-- A chat that was pulled, and is inserted once more. -/
def again : OfflineMsg where
  msgId := "m1"
  fromId := "a"
  toId := "b"
  cmdId := mesChatDeliver
  msgData := .other ""
  createTime := 1

/-- Another chat, which is stored already. -/
def stored : OfflineMsg := { again with msgId := "m0" }

/-- The chat is inserted once more at a time, and behind it comes the one that is stored: where
`insert_many` stops at the first duplicate, the two ways agree. -/
theorem insertMany_insertOnes_duplicates :
    Covered [again, again, stored].length ∧ ∃ ok store',
      insertMany [again, again, stored] [stored] = some (ok, store') ∧
        SamePending store' (insertOnes [stored] [again, again, stored]) := by
  refine (insertMany_insertOnes (by decide)).mpr ⟨by decide, fun doc hdoc => ?_, fun doc hlast _ => ?_⟩
  · have hvalid : ∀ doc ∈ [again, again, stored].map OfflineMsg.toDoc, doc.isValid = true := by decide
    exact hvalid doc hdoc.mem
  · have hcases : ∀ doc ∈ [again, again, stored].map OfflineMsg.toDoc, doc = again ∨ doc = stored := by
      decide
    obtain rfl | rfl := hcases doc hlast.mem
    · exact .inr ⟨[], [again, stored], rfl, by decide⟩
    · exact .inl List.mem_cons_self

theorem not_insertMany_insertOnes :
    ¬ ∃ ok store', insertMany [again] [{ again with bPulled := 1 }] = some (ok, store') ∧
      SamePending store' (insertOnes [{ again with bPulled := 1 }] [again]) := by
  rintro ⟨ok, store', hmany, hsame⟩
  have hmany' : insertMany [again] [{ again with bPulled := 1 }] =
      some (false, [{ again with bPulled := 1 }]) := insertMany_of_le (by decide)
  rw [hmany'] at hmany
  cases hmany
  have hones : again ∈ insertOnes [{ again with bPulled := 1 }] [again] := by decide
  exact absurd ((hsame again rfl).mpr hones) (by decide)

end CMongoDbColl

end Msg

end ImServer
