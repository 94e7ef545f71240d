import Mathlib.Data.List.Nodup

/-!
# Collections of documents

A collection keeps its documents in order. Replacing with `upsert` puts a document in the
place of the first one that a filter finds, or at the end, and updating changes all that a
filter finds.
-/

namespace Collection

universe u v

variable {α : Type u}

/-- `replace_one` with `upsert`. -/
def replaceOne (filter : α → Bool) (doc : α) : List α → List α
  | [] => [doc]
  | first :: rest => if filter first then doc :: rest else first :: replaceOne filter doc rest

def updateMany (filter : α → Bool) (update : α → α) (docs : List α) : List α :=
  docs.map fun doc => if filter doc then update doc else doc

variable {filter keep : α → Bool} {update : α → α} {doc new : α}

theorem mem_of_mem_replaceOne {docs : List α} (h : doc ∈ replaceOne filter new docs) :
    doc = new ∨ doc ∈ docs := by
  induction docs with
  | nil => exact .inl (List.mem_singleton.mp h)
  | cons first rest ih =>
    unfold replaceOne at h
    split at h
    · exact (List.mem_cons.mp h).imp_right (List.mem_cons_of_mem _)
    · obtain rfl | hrest := List.mem_cons.mp h
      · exact .inr List.mem_cons_self
      · exact (ih hrest).imp_right (List.mem_cons_of_mem _)

theorem new_mem_replaceOne (filter : α → Bool) (new : α) (docs : List α) :
    new ∈ replaceOne filter new docs := by
  induction docs with
  | nil => exact List.mem_cons_self
  | cons first rest ih =>
    unfold replaceOne
    split
    · exact List.mem_cons_self
    · exact List.mem_cons_of_mem _ ih

theorem mem_replaceOne_or_found {docs : List α} (hmem : doc ∈ docs) :
    doc ∈ replaceOne filter new docs ∨ docs.find? filter = some doc := by
  induction docs with
  | nil => cases hmem
  | cons first rest ih =>
    unfold replaceOne
    cases hfirst : filter first with
    | true =>
      obtain rfl | hmem := List.mem_cons.mp hmem
      · exact .inr (List.find?_cons_of_pos hfirst)
      · exact .inl (List.mem_cons_of_mem _ hmem)
    | false =>
      obtain rfl | hmem := List.mem_cons.mp hmem
      · exact .inl List.mem_cons_self
      · rw [List.find?_cons_of_neg (by simp [hfirst])]
        exact (ih hmem).imp_left (List.mem_cons_of_mem _)

theorem mem_replaceOne {docs : List α} (hmem : doc ∈ docs) (hfilter : filter doc = false) :
    doc ∈ replaceOne filter new docs :=
  (mem_replaceOne_or_found hmem).resolve_right fun hfound =>
    Bool.eq_false_iff.mp hfilter (List.find?_some hfound)

/-- The document takes the place of the first one that is found. -/
theorem replaceOne_of_find? {docs : List α} {first : α} (h : docs.find? filter = some first) :
    ∃ before after, docs = before ++ first :: after ∧
      replaceOne filter new docs = before ++ new :: after := by
  induction docs with
  | nil => cases h
  | cons doc rest ih =>
    rw [List.find?_cons] at h
    unfold replaceOne
    split at h
    · next hdoc =>
      cases h
      exact ⟨[], rest, rfl, by rw [if_pos hdoc]; rfl⟩
    · next hdoc =>
      obtain ⟨before, after, hdocs, hreplaced⟩ := ih h
      refine ⟨doc :: before, after, by rw [hdocs]; rfl, ?_⟩
      rw [if_neg (Bool.eq_false_iff.mp hdoc), hreplaced]
      rfl

theorem replaceOne_of_find?_eq_none {docs : List α} (h : docs.find? filter = none) :
    replaceOne filter new docs = docs ++ [new] := by
  induction docs with
  | nil => rfl
  | cons doc rest ih =>
    rw [List.find?_cons] at h
    unfold replaceOne
    split at h
    · cases h
    · next hdoc => rw [if_neg (Bool.eq_false_iff.mp hdoc), ih h, List.cons_append]

/-- Replacing takes away the first document that is found, and no other. -/
theorem count_replaceOne_lt_iff [DecidableEq α] {docs : List α}
    (hnew : ∀ first ∈ docs.find? filter, new ≠ first) :
    (replaceOne filter new docs).count doc < docs.count doc ↔ docs.find? filter = some doc := by
  cases hfind : docs.find? filter with
  | none => simp [replaceOne_of_find?_eq_none hfind, List.count_append]
  | some first =>
    obtain ⟨before, after, hdocs, hreplaced⟩ : ∃ before after, docs = before ++ first :: after ∧
        replaceOne filter new docs = before ++ new :: after := replaceOne_of_find? hfind
    have hne := hnew first hfind
    rw [hreplaced, hdocs, List.count_append, List.count_append, List.count_cons, List.count_cons]
    simp only [beq_iff_eq, Option.some.injEq]
    constructor
    · intro hlt
      by_contra hdoc
      simp only [hdoc, if_false] at hlt
      omega
    · rintro rfl
      simp [hne]

/-- If neither the new document nor those that are found are seen, nothing seen changes. -/
theorem filter_replaceOne (hnew : keep new = false) (hfound : ∀ doc, filter doc → keep doc = false)
    (docs : List α) : (replaceOne filter new docs).filter keep = docs.filter keep := by
  induction docs with
  | nil => simp [replaceOne, hnew]
  | cons first rest ih =>
    unfold replaceOne
    split
    · next hfirst => simp [hnew, hfound first hfirst]
    · simp only [List.filter_cons, ih]

/-- A document that an update cannot produce was there before and was not found. -/
theorem mem_updateMany {docs : List α} (hupdate : ∀ doc', filter doc' → update doc' ≠ doc) :
    doc ∈ updateMany filter update docs ↔ doc ∈ docs ∧ filter doc = false := by
  constructor
  · intro hmem
    obtain ⟨doc', hdoc', heq⟩ := List.mem_map.mp hmem
    split at heq
    · next hfilter => exact absurd heq (hupdate doc' hfilter)
    · next hfilter =>
      subst heq
      exact ⟨hdoc', Bool.eq_false_iff.mpr hfilter⟩
  · intro ⟨hmem, hfilter⟩
    exact List.mem_map.mpr ⟨doc, hmem, by simp [hfilter]⟩

section Keys

variable {κ : Type v} (key : α → κ)

/-- A document in front of the first duplicate. -/
def Inserted (docs news : List α) (doc : α) : Prop :=
  ∃ before after, news = before ++ doc :: after ∧ ((docs ++ (before ++ [doc])).map key).Nodup

/-- A document that no other one with its key follows. -/
def IsLast (news : List α) (doc : α) : Prop :=
  ∃ before after, news = before ++ doc :: after ∧ key doc ∉ after.map key

variable {key : α → κ} {docs news : List α}

theorem Inserted.mem (h : Inserted key docs news doc) : doc ∈ news := by
  obtain ⟨before, after, rfl, -⟩ := h
  exact List.mem_append_right _ List.mem_cons_self

theorem IsLast.mem (h : IsLast key news doc) : doc ∈ news := by
  obtain ⟨before, after, rfl, -⟩ := h
  exact List.mem_append_right _ List.mem_cons_self

/-- A document with the key of an earlier one is not in front of the first duplicate. -/
theorem eq_of_nodup_key {doc' : α} {before mid after after' : List α}
    (hnews : doc :: after = mid ++ doc' :: after')
    (hnodup : ((docs ++ (before ++ mid ++ [doc'])).map key).Nodup) (hkey : key doc = key doc') :
    doc = doc' := by
  cases mid with
  | nil => exact (List.cons.inj hnews).1
  | cons first mid =>
    obtain ⟨rfl, -⟩ := List.cons.inj hnews
    rw [← List.append_assoc, List.map_append] at hnodup
    have hmem : key doc ∈ (docs ++ (before ++ doc :: mid)).map key :=
      List.mem_map_of_mem (List.mem_append_right _ (List.mem_append_right _ List.mem_cons_self))
    exact absurd (List.mem_singleton.mpr hkey) (List.disjoint_of_nodup_append hnodup hmem)

/-- Of each key there is one document in front of the first duplicate. -/
theorem Inserted.eq_of_key {doc' : α} (h : Inserted key docs news doc)
    (h' : Inserted key docs news doc')
    (hkey : key doc = key doc') : doc = doc' := by
  obtain ⟨before, after, hnews, hnodup⟩ := h
  obtain ⟨before', after', hnews', hnodup'⟩ := h'
  obtain ⟨mid, rfl, hmid⟩ | ⟨mid, rfl, hmid⟩ := List.append_eq_append_iff.mp (hnews.symm.trans hnews')
  · exact eq_of_nodup_key hmid hnodup' hkey
  · exact (eq_of_nodup_key hmid hnodup hkey.symm).symm

theorem isLast_cons {new : α} :
    IsLast key (new :: news) doc ↔ doc = new ∧ key doc ∉ news.map key ∨ IsLast key news doc := by
  constructor
  · rintro ⟨_ | ⟨first, before⟩, after, hnews, hlast⟩
    · obtain ⟨rfl, rfl⟩ := List.cons.inj hnews
      exact .inl ⟨rfl, hlast⟩
    · obtain ⟨rfl, rfl⟩ := List.cons.inj hnews
      exact .inr ⟨before, after, rfl, hlast⟩
  · rintro (⟨rfl, hlast⟩ | ⟨before, after, rfl, hlast⟩)
    · exact ⟨[], news, rfl, hlast⟩
    · exact ⟨new :: before, after, rfl, hlast⟩

theorem not_isLast_nil : ¬ IsLast key [] doc := by
  rintro ⟨before, after, hnews, -⟩
  exact absurd hnews.symm (List.append_ne_nil_of_right_ne_nil _ (List.cons_ne_nil _ _))

/-- If the key decides which documents are kept, the last ones that are kept are the last ones. -/
theorem isLast_filter {p : α → Bool} (hp : ∀ a b, key a = key b → p a = p b) :
    IsLast key (news.filter p) doc ↔ IsLast key news doc ∧ p doc = true := by
  induction news with
  | nil => exact ⟨fun h => absurd h not_isLast_nil, fun h => absurd h.1 not_isLast_nil⟩
  | cons new rest ih =>
    have hkeys : p doc = true → (key doc ∈ (rest.filter p).map key ↔ key doc ∈ rest.map key) := by
      intro hdoc
      simp only [List.mem_map, List.mem_filter]
      exact ⟨fun ⟨a, ha, hk⟩ => ⟨a, ha.1, hk⟩,
        fun ⟨a, ha, hk⟩ => ⟨a, ⟨ha, (hp a doc hk).trans hdoc⟩, hk⟩⟩
    rw [List.filter_cons, isLast_cons]
    split
    · next hnew =>
      rw [isLast_cons, ih]
      constructor
      · rintro (⟨rfl, hlast⟩ | ⟨hlast, hdoc⟩)
        · exact ⟨.inl ⟨rfl, fun h => hlast ((hkeys hnew).mpr h)⟩, hnew⟩
        · exact ⟨.inr hlast, hdoc⟩
      · rintro ⟨⟨rfl, hlast⟩ | hlast, hdoc⟩
        · exact .inl ⟨rfl, fun h => hlast ((hkeys hdoc).mp h)⟩
        · exact .inr ⟨hlast, hdoc⟩
    · next hnew =>
      rw [ih]
      constructor
      · exact fun h => ⟨.inr h.1, h.2⟩
      · rintro ⟨⟨rfl, -⟩ | hlast, hdoc⟩
        · exact absurd hdoc hnew
        · exact ⟨hlast, hdoc⟩

theorem exists_isLast {k : κ} (h : k ∈ news.map key) : ∃ last, IsLast key news last ∧ key last = k := by
  induction news with
  | nil => cases h
  | cons new rest ih =>
    by_cases hrest : k ∈ rest.map key
    · obtain ⟨last, hlast, hkey⟩ := ih hrest
      exact ⟨last, isLast_cons.mpr (.inr hlast), hkey⟩
    · have hkey : k = key new := (List.mem_cons.mp h).resolve_right hrest
      exact ⟨new, isLast_cons.mpr (.inl ⟨rfl, hkey ▸ hrest⟩), hkey.symm⟩

end Keys

section DecidableKeys

variable {κ : Type v} [DecidableEq κ] (key : α → κ)

/-- An ordered `insert_many` under a unique index. It stops at the first duplicate, and what it has
inserted before stays. -/
def insertUnique : List α → List α → Bool × List α
  | docs, [] => (true, docs)
  | docs, new :: rest =>
    if key new ∈ docs.map key then (false, docs) else insertUnique (docs ++ [new]) rest

/-- Inserting documents one after another, each in the place of the one with its key. -/
def upsertAll (docs news : List α) : List α :=
  news.foldl (fun docs new => replaceOne (fun doc => decide (key doc = key new)) new docs) docs

variable {key : α → κ} {docs news : List α}

theorem insertUnique_append (a b : List α) :
    insertUnique key docs (a ++ b) =
      if (insertUnique key docs a).1 then insertUnique key (insertUnique key docs a).2 b
      else insertUnique key docs a := by
  induction a generalizing docs with
  | nil => rfl
  | cons new rest ih =>
    rw [List.cons_append, insertUnique, insertUnique]
    split
    · rfl
    · exact ih

theorem mem_insertUnique (h : (docs.map key).Nodup) :
    doc ∈ (insertUnique key docs news).2 ↔ doc ∈ docs ∨ Inserted key docs news doc := by
  induction news generalizing docs with
  | nil =>
    refine ⟨.inl, fun hdoc => hdoc.elim id ?_⟩
    rintro ⟨before, after, hnews, -⟩
    exact absurd hnews.symm (List.append_ne_nil_of_right_ne_nil _ (List.cons_ne_nil _ _))
  | cons new rest ih =>
    rw [insertUnique]
    split
    · next hdup =>
      refine ⟨.inl, fun hdoc => hdoc.elim id ?_⟩
      rintro ⟨before, after, hnews, hnodup⟩
      have hmem : key new ∈ (before ++ [doc]).map key := by
        obtain _ | ⟨first, before⟩ := before
        · exact List.mem_map.mpr ⟨doc, List.mem_singleton_self doc, by rw [(List.cons.inj hnews).1]⟩
        · exact List.mem_map.mpr ⟨first, List.mem_cons_self, by rw [(List.cons.inj hnews).1]⟩
      rw [List.map_append] at hnodup
      exact absurd hmem (List.disjoint_of_nodup_append hnodup hdup)
    · next hfresh =>
      have hnodup : ((docs ++ [new]).map key).Nodup := by
        rw [List.map_append, List.nodup_append]
        refine ⟨h, List.nodup_singleton _, ?_⟩
        rintro k hk k' hk' rfl
        exact hfresh (List.mem_singleton.mp hk' ▸ hk)
      rw [ih hnodup, List.mem_append, List.mem_singleton, or_assoc]
      refine or_congr_right ⟨?_, ?_⟩
      · rintro (rfl | ⟨before, after, rfl, hall⟩)
        · exact ⟨[], rest, rfl, hnodup⟩
        · exact ⟨new :: before, after, rfl, by rwa [List.cons_append, List.append_cons]⟩
      · rintro ⟨before, after, hnews, hall⟩
        obtain _ | ⟨first, before⟩ := before
        · exact .inl (List.cons.inj hnews).1.symm
        · obtain ⟨rfl, rfl⟩ := List.cons.inj hnews
          exact .inr ⟨before, after, rfl, by rwa [List.cons_append, List.append_cons] at hall⟩

/-- With unique keys, replacing puts the document in and takes the one with its key away. -/
theorem mem_replaceOne_key {new : α} (h : (docs.map key).Nodup) :
    doc ∈ replaceOne (fun doc => decide (key doc = key new)) new docs ↔
      doc = new ∨ doc ∈ docs ∧ key doc ≠ key new := by
  induction docs with
  | nil => simp [replaceOne]
  | cons first rest ih =>
    obtain ⟨hfirst, hrest⟩ := List.nodup_cons.mp h
    rw [replaceOne]
    split
    · next hkey =>
      have hkey : key first = key new := of_decide_eq_true hkey
      rw [List.mem_cons, List.mem_cons]
      refine or_congr_right ⟨fun hdoc => ⟨.inr hdoc, fun heq => ?_⟩, ?_⟩
      · exact hfirst (List.mem_map.mpr ⟨doc, hdoc, heq.trans hkey.symm⟩)
      · rintro ⟨rfl | hdoc, hne⟩
        · exact absurd hkey hne
        · exact hdoc
    · next hkey =>
      have hkey : key first ≠ key new := of_decide_eq_false (Bool.eq_false_iff.mpr hkey)
      rw [List.mem_cons, List.mem_cons, ih hrest]
      constructor
      · rintro (rfl | rfl | ⟨hdoc, hne⟩)
        · exact .inr ⟨.inl rfl, hkey⟩
        · exact .inl rfl
        · exact .inr ⟨.inr hdoc, hne⟩
      · rintro (rfl | ⟨rfl | hdoc, hne⟩)
        · exact .inr (.inl rfl)
        · exact .inl rfl
        · exact .inr (.inr ⟨hdoc, hne⟩)

theorem nodup_replaceOne_key {new : α} (h : (docs.map key).Nodup) :
    ((replaceOne (fun doc => decide (key doc = key new)) new docs).map key).Nodup := by
  induction docs with
  | nil => exact List.nodup_singleton _
  | cons first rest ih =>
    obtain ⟨hfirst, hrest⟩ := List.nodup_cons.mp h
    rw [replaceOne]
    split
    · next hkey =>
      rw [List.map_cons, ← of_decide_eq_true hkey]
      exact h
    · next hkey =>
      refine List.nodup_cons.mpr ⟨fun hmem => ?_, ih hrest⟩
      obtain ⟨doc, hdoc, heq⟩ := List.mem_map.mp hmem
      obtain rfl | ⟨hdoc, -⟩ := (mem_replaceOne_key hrest).mp hdoc
      · exact hkey (decide_eq_true heq.symm)
      · exact hfirst (List.mem_map.mpr ⟨doc, hdoc, heq⟩)

/-- What is there after the inserts: the last documents of their keys, and the old ones with other
keys. -/
theorem mem_upsertAll (h : (docs.map key).Nodup) :
    doc ∈ upsertAll key docs news ↔ IsLast key news doc ∨ doc ∈ docs ∧ key doc ∉ news.map key := by
  induction news generalizing docs with
  | nil =>
    exact ⟨fun hdoc => .inr ⟨hdoc, List.not_mem_nil⟩,
      fun hdoc => hdoc.elim (fun hlast => absurd hlast not_isLast_nil) And.left⟩
  | cons new rest ih =>
    rw [upsertAll, List.foldl_cons, ← upsertAll, ih (nodup_replaceOne_key h), mem_replaceOne_key h,
      isLast_cons, List.map_cons, List.mem_cons, not_or]
    constructor
    · rintro (hlast | ⟨rfl | ⟨hdoc, hne⟩, hrest⟩)
      · exact .inl (.inr hlast)
      · exact .inl (.inl ⟨rfl, hrest⟩)
      · exact .inr ⟨hdoc, hne, hrest⟩
    · rintro ((⟨rfl, hrest⟩ | hlast) | ⟨hdoc, hne, hrest⟩)
      · exact .inr ⟨.inl rfl, hrest⟩
      · exact .inl hlast
      · exact .inr ⟨.inr ⟨hdoc, hne⟩, hrest⟩

end DecidableKeys

end Collection
