import ImServer.Base.JsonStyled

/-!
# What is written is read back

The writer of `Json::Value` without arrays writes what the writer with arrays writes. Its text is
JSON and says the value with its texts and names up to their first NUL, so that any reader of JSON
understands it, whatever integers and bytes the value has.

The reader of the repository takes it for the value itself, if the integers fit 64 bits and the
members are in the order of their names, in which a `Json::Value` keeps them.
-/

namespace ImServer

namespace Json

open JsonText (Value)

mutual

def Tree.toStyled : Tree → Styled
  | .null => .null
  | .int n => .int n
  | .string s => .string s
  | .object members => .object (toStyledMembers members)

def toStyledMembers : List (List UInt8 × Tree) → List (List UInt8 × Styled)
  | [] => []
  | (name, value) :: members => (name, value.toStyled) :: toStyledMembers members

end

mutual

/-- Where no new line is due, a text is appended that depends on the value only. -/
theorem writeValue_eq {indent : ℕ} {document : List UInt8}
    (h : writeIndent indent document = document) :
    (tree : Tree) → writeValue indent document tree = document ++ styledText indent tree.toStyled
  | .null => by rw [writeValue, Tree.toStyled, styledText]
  | .int _ => by rw [writeValue, Tree.toStyled, styledText]
  | .string _ => by rw [writeValue, Tree.toStyled, styledText]
  | .object [] => by rw [writeValue, Tree.toStyled, toStyledMembers, styledText]
  | .object ((name, value) :: members) => by
    have hbegin := solid_brace document
    have hend := solid_styledMembers hbegin (indent + 3) (toStyledMembers ((name, value) :: members))
    rw [writeValue, h, writeMembers_eq hbegin, hend.writeIndent_eq, Tree.toStyled, toStyledMembers,
      styledText]
    simp only [List.append_assoc]
    rfl

theorem writeMembers_eq {indent : ℕ} {document : List UInt8} (h : Solid document) :
    (members : List (List UInt8 × Tree)) → writeMembers indent document members =
      document ++ styledMembers indent (toStyledMembers members)
  | [] => by rw [writeMembers, toStyledMembers, styledMembers, List.append_nil]
  | [(name, value)] => by
    rw [writeMembers, h.writeIndent_eq, writeValue_eq (writeIndent_name indent _), toStyledMembers,
      toStyledMembers, styledMembers]
    simp only [List.append_assoc, List.append_nil]
  | (name, value) :: (name', value') :: members => by
    rw [writeMembers, h.writeIndent_eq, writeValue_eq (writeIndent_name indent _),
      writeMembers_eq (solid_comma _), toStyledMembers, toStyledMembers, toStyledMembers,
      styledMembers]
    simp only [List.append_assoc]
    rfl

end

theorem toStyledString_eq (tree : Tree) :
    toStyledString tree = StyledWriter.write tree.toStyled := by
  rw [toStyledString, writeValue_eq rfl, List.nil_append, StyledWriter.write_eq]

mutual

/-- The value that is written: its texts and names end at their first NUL, as the writer takes them
for C strings. -/
def Tree.toValue : Tree → Value
  | .null => .null
  | .int n => .int n
  | .string s => .string (CText.cStr s)
  | .object members => .object (toMembers members)

def toMembers : List (List UInt8 × Tree) → List (List UInt8 × Value)
  | [] => []
  | (name, value) :: members => (CText.cStr name, value.toValue) :: toMembers members

end

mutual

theorem Tree.toValue_toStyled : (tree : Tree) → tree.toStyled.toValue = tree.toValue
  | .null => by rw [Tree.toStyled, Tree.toValue, Styled.toValue]
  | .int _ => by rw [Tree.toStyled, Tree.toValue, Styled.toValue]
  | .string _ => by rw [Tree.toStyled, Tree.toValue, Styled.toValue]
  | .object members => by
    rw [Tree.toStyled, Tree.toValue, Styled.toValue, styledNamed_toStyledMembers members]

theorem styledNamed_toStyledMembers : (members : List (List UInt8 × Tree)) →
    styledNamed (toStyledMembers members) = toMembers members
  | [] => by rw [toStyledMembers, toMembers, styledNamed]
  | (name, value) :: members => by
    rw [toStyledMembers, toMembers, styledNamed, value.toValue_toStyled,
      styledNamed_toStyledMembers members]

end

theorem document_toStyledString (tree : Tree) :
    JsonText.Document (toStyledString tree) tree.toValue := by
  rw [toStyledString_eq, ← tree.toValue_toStyled]
  exact StyledWriter.document_write tree.toStyled

/-- A value with members, maybe none, which is what a strict reader expects. -/
def Tree.IsObject : Tree → Prop
  | .object _ => True
  | _ => False

/-- What is written is JSON, and the reader gets the value back from it. -/
theorem toStyledString_denotes (tree : Tree) :
    JsonText.Document (toStyledString tree) tree.toValue ∧
    ∀ (features : Features) (sscanf : Sscanf), features.strictRoot = false ∨ tree.IsObject →
      ∃ node, parse features sscanf.scan (toStyledString tree) = some node ∧
        Denotes sscanf.scan tree.toValue node := by
  have hdocument := document_toStyledString tree
  refine ⟨hdocument, fun features sscanf hroot => ?_⟩
  have hcontainer : features.strictRoot = true → Container tree.toValue := by
    intro hstrict
    obtain hfalse | hobject := hroot
    · rw [hstrict] at hfalse
      cases hfalse
    · cases tree with
      | object members => exact trivial
      | null | int _ | string _ => exact hobject.elim
  exact ⟨_, parse_document (decodes_of_document sscanf hdocument) hdocument hcontainer,
    denotes_of_document sscanf hdocument⟩

mutual

/-- The integers fit 64 bits, no name has a NUL, and the members are in order. -/
def Tree.Legible : Tree → Prop
  | .null => True
  | .int n => -2 ^ 63 ≤ n ∧ n < 2 ^ 64
  | .string _ => True
  | .object members => LegibleMembers members

def LegibleMembers : List (List UInt8 × Tree) → Prop
  | [] => True
  | (name, value) :: members =>
    (0 ∉ name ∧ value.Legible) ∧ (∀ later ∈ members, name < later.1) ∧ LegibleMembers members

end

mutual

/-- What is read. -/
def Tree.toNode : Tree → Node
  | .null => .null
  | .int n => ofInt n
  | .string s => .string (CText.cStr s)
  | .object members => .object (toNodes members)

def toNodes : List (List UInt8 × Tree) → List (List UInt8 × Node)
  | [] => []
  | (name, value) :: members => (name, value.toNode) :: toNodes members

end

theorem mem_insertMember {key : List UInt8} {value : Tree} {members : List (List UInt8 × Tree)}
    {member : List UInt8 × Tree} (h : member ∈ Tree.insertMember key value members) :
    member.1 = key ∨ member ∈ members := by
  induction members with
  | nil =>
    rw [List.mem_singleton.mp h]
    exact .inl rfl
  | cons first rest ih =>
    rw [Tree.insertMember] at h
    split at h
    · rcases List.mem_cons.mp h with rfl | h
      · exact .inl rfl
      · exact .inr (List.mem_cons_of_mem _ h)
    · split at h
      · rcases List.mem_cons.mp h with rfl | h
        · exact .inl rfl
        · exact .inr h
      · rcases List.mem_cons.mp h with rfl | h
        · exact .inr List.mem_cons_self
        · exact (ih h).imp_right (List.mem_cons_of_mem _)

theorem LegibleMembers.insert {key : List UInt8} {value : Tree} (hkey : 0 ∉ key)
    (hvalue : value.Legible) {members : List (List UInt8 × Tree)} (h : LegibleMembers members) :
    LegibleMembers (Tree.insertMember key value members) := by
  induction members with
  | nil => exact ⟨⟨hkey, hvalue⟩, fun _ hmem => absurd hmem List.not_mem_nil, trivial⟩
  | cons member rest ih =>
    obtain ⟨hmember, hfirst, hrest⟩ := h
    rw [Tree.insertMember]
    split
    · next heq => exact ⟨⟨hkey, hvalue⟩, heq ▸ hfirst, hrest⟩
    · next hne =>
      split
      · next hlt =>
        refine ⟨⟨hkey, hvalue⟩, fun later hlater => ?_, hmember, hfirst, hrest⟩
        rcases List.mem_cons.mp hlater with rfl | hlater
        · exact hlt
        · exact List.lt_trans hlt (hfirst later hlater)
      · next hlt =>
        refine ⟨hmember, fun later hlater => ?_, ih hrest⟩
        rcases mem_insertMember hlater with heq | hlater
        · rw [heq]
          exact (List.le_iff_lt_or_eq.mp (List.not_lt.mp hlt)).resolve_right fun heq' =>
            hne heq'.symm
        · exact hfirst later hlater

theorem Tree.Legible.set {tree value : Tree} (h : tree.Legible) (hvalue : value.Legible)
    {key : String} (hkey : 0 ∉ CText.bytes key) : (tree.set key value).Legible := by
  cases tree with
  | object members => exact LegibleMembers.insert hkey hvalue h
  | null | int _ | string _ =>
    exact ⟨⟨hkey, hvalue⟩, fun _ hmem => absurd hmem List.not_mem_nil, trivial⟩

theorem Tree.legible_null : Tree.null.Legible := trivial

theorem Tree.legible_int {n : ℕ} (h : n < 2 ^ 64) : (Tree.int n).Legible :=
  ⟨by omega, by omega⟩

theorem Tree.Legible.setString {tree : Tree} (h : tree.Legible) {key : String} {s : List UInt8}
    (hkey : 0 ∉ CText.bytes key) : (tree.set key (.string s)).Legible :=
  have hvalue : (Tree.string s).Legible := trivial
  h.set hvalue hkey

theorem Tree.Legible.setNat {tree : Tree} (h : tree.Legible) {key : String} {n : ℕ}
    (hn : n < 2 ^ 64) (hkey : 0 ∉ CText.bytes key) : (tree.set key (.int n)).Legible :=
  h.set (legible_int hn) hkey

theorem lookup_toNodes (members : List (List UInt8 × Tree)) (key : List UInt8) :
    (toNodes members).lookup key = (members.lookup key).map Tree.toNode := by
  induction members with
  | nil => rfl
  | cons member rest ih =>
    rw [toNodes, List.lookup_cons, List.lookup_cons, ih]
    cases key == member.1 <;> rfl

theorem Tree.isObject_set (tree : Tree) (key : String) (value : Tree) :
    (tree.set key value).IsObject := by
  cases tree <;> exact trivial

theorem Tree.IsObject.get_toNode {tree : Tree} (h : tree.IsObject) (key : String) :
    tree.toNode.get key = some (tree.get (CText.bytes key)).toNode := by
  cases tree with
  | object members =>
    rw [toNode, Node.get, get, lookup_toNodes]
    cases members.lookup (CText.bytes key) <;> rfl
  | null | int _ | string _ => exact h.elim

theorem setMember_last {name : List UInt8} {read : List (List UInt8 × Node)}
    (h : ∀ earlier ∈ read, earlier.1 < name) (node : Node) :
    setMember name node read = read ++ [(name, node)] := by
  induction read with
  | nil => rfl
  | cons first rest ih =>
    obtain ⟨hfirst, hrest⟩ := List.forall_mem_cons.mp h
    have hne : name ≠ first.1 := fun heq => List.lt_irrefl _ (heq ▸ hfirst)
    rw [setMember, if_neg hne, if_neg (List.lt_asymm hfirst), ih hrest, List.cons_append]

section Legible

variable {features : Features} {scan : Scan}

mutual

theorem Tree.Legible.decodes : {tree : Tree} → tree.Legible → Decodes scan tree.toValue
  | .null, _ => .null
  | .int _, h => .int (by rw [decodeNumber_toString scan h.1 h.2]; rfl)
  | .string _, _ => .string _
  | .object _, h => .object (LegibleMembers.decodes h)

theorem LegibleMembers.decodes : {members : List (List UInt8 × Tree)} → LegibleMembers members →
    ∀ member ∈ toMembers members, Decodes scan member.2
  | [], _ => fun _ hmem => absurd hmem List.not_mem_nil
  | (_, _) :: _, ⟨⟨_, hvalue⟩, _, hmembers⟩ =>
    List.forall_mem_cons.mpr ⟨Tree.Legible.decodes hvalue, LegibleMembers.decodes hmembers⟩

end

mutual

theorem Tree.Legible.nodeOf_eq : {tree : Tree} → tree.Legible → nodeOf scan tree.toValue = tree.toNode
  | .null, _ => rfl
  | .int _, h => by
    rw [Tree.toValue, nodeOf, decodeNumber_toString scan h.1 h.2]
    rfl
  | .string _, _ => rfl
  | .object members, h => by
    rw [Tree.toValue, nodeOf, Tree.toNode, LegibleMembers.membersOf_eq h fun _ hmem =>
      absurd hmem List.not_mem_nil]
    rfl

/-- The members are in order, so that each one is put behind those that were read before. -/
theorem LegibleMembers.membersOf_eq : {members : List (List UInt8 × Tree)} →
    LegibleMembers members → {before : List (List UInt8 × Node)} →
    (∀ earlier ∈ before, ∀ later ∈ members, earlier.1 < later.1) →
    membersOf scan before (toMembers members) = before ++ toNodes members
  | [], _, _, _ => by rw [toMembers, membersOf, toNodes, List.append_nil]
  | (name, value) :: members, ⟨⟨hname, hvalue⟩, hfirst, hmembers⟩, before, hbefore => by
    have hcut : CText.cStr name = name := CText.cStr_eq_self_iff.mpr hname
    have hlast := setMember_last (fun earlier hmem => hbefore earlier hmem _ List.mem_cons_self)
      value.toNode
    have hnext : ∀ earlier ∈ before ++ [(name, value.toNode)], ∀ later ∈ members,
        earlier.1 < later.1 := by
      intro earlier hmem later hlater
      rcases List.mem_append.mp hmem with hmem | hmem
      · exact hbefore earlier hmem later (List.mem_cons_of_mem _ hlater)
      · rw [List.mem_singleton.mp hmem]
        exact hfirst later hlater
    rw [toMembers, membersOf, hcut, hcut, hvalue.nodeOf_eq, hlast, hmembers.membersOf_eq hnext,
      toNodes, List.append_assoc]
    rfl

end

theorem parse_toStyledString {tree : Tree} (hobject : tree.IsObject) (h : tree.Legible) :
    parse features scan (toStyledString tree) = some tree.toNode := by
  have hcontainer : Container tree.toValue := by
    cases tree with
    | object members => exact trivial
    | null | int _ | string _ => exact hobject.elim
  rw [parse_document h.decodes (document_toStyledString tree) fun _ => hcontainer, h.nodeOf_eq]

end Legible

end Json

end ImServer
