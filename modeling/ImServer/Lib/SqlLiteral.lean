import Mathlib.Data.List.Induction
import Mathlib.Data.Bool.AllAny

/-!
# Literals in SQL texts

The literals of MySQL with backslash escapes: a quote that is doubled or follows a backslash is
part of the literal, and `\%` and `\_` keep their backslash. A statement that is put together
from pieces of SQL and quoted fields is read as it was meant exactly if each field is read back
from its literal, since a field that is not is never read as its value.
-/

namespace SqlLiteral

def quote : UInt8 := 0x27

def doubleQuote : UInt8 := 0x22

def backslash : UInt8 := 0x5c

/-- What a byte stands for after a backslash. -/
def unescape (b : UInt8) : List UInt8 :=
  if b = 0x30 then [0x00]
  else if b = 0x62 then [0x08]
  else if b = 0x6e then [0x0a]
  else if b = 0x72 then [0x0d]
  else if b = 0x74 then [0x09]
  else if b = 0x5a then [0x1a]
  else if b = 0x25 ∨ b = 0x5f then [backslash, b]
  else [b]

/-- The value of a literal, behind its opening quote `q`, and what follows its closing quote. -/
def literal (q : UInt8) : List UInt8 → Option (List UInt8 × List UInt8)
  | [] => none
  | [b] => if b = q then some ([], []) else none
  | b :: c :: rest =>
    if b = q then
      if c = q then (literal q rest).map (Prod.map (q :: ·) id) else some ([], c :: rest)
    else if b = backslash then (literal q rest).map (Prod.map (unescape c ++ ·) id)
    else (literal q (c :: rest)).map (Prod.map (b :: ·) id)

inductive Token where
  | byte (b : UInt8)
  | text (value : List UInt8)
  deriving DecidableEq, Repr

theorem length_literal {q : UInt8} {text value rest : List UInt8}
    (h : literal q text = some (value, rest)) : rest.length < text.length := by
  fun_induction literal q text generalizing value with
  | case1 => cases h
  | case2 =>
    cases h
    exact Nat.lt_succ_self _
  | case3 => cases h
  | case4 rest' ih =>
    obtain ⟨⟨value', rest''⟩, hrest, heq⟩ := Option.map_eq_some_iff.mp h
    obtain ⟨-, rfl⟩ := Prod.mk.inj heq
    exact Nat.lt_of_lt_of_le (ih hrest) (by simp; omega)
  | case5 =>
    cases h
    exact Nat.lt_succ_self _
  | case6 c rest' hne ih =>
    obtain ⟨⟨value', rest''⟩, hrest, heq⟩ := Option.map_eq_some_iff.mp h
    obtain ⟨-, rfl⟩ := Prod.mk.inj heq
    exact Nat.lt_of_lt_of_le (ih hrest) (by simp; omega)
  | case7 b c rest' hb hesc ih =>
    obtain ⟨⟨value', rest''⟩, hrest, heq⟩ := Option.map_eq_some_iff.mp h
    obtain ⟨-, rfl⟩ := Prod.mk.inj heq
    exact Nat.lt_succ_of_lt (ih hrest)

/-- The literals and the bytes between them, unless a literal is not closed. -/
def tokens : List UInt8 → Option (List Token)
  | [] => some []
  | b :: rest =>
    if b = quote ∨ b = doubleQuote then
      match _hvalue : literal b rest with
      | none => none
      | some (value, rest') => (tokens rest').map (.text value :: ·)
    else (tokens rest).map (.byte b :: ·)
termination_by text => text.length
decreasing_by
  · exact Nat.lt_succ_of_lt (length_literal _hvalue)
  · exact Nat.lt_succ_self _

section Reading

variable {q b c : UInt8} {text value rest : List UInt8}

theorem literal_ordinary (hq : b ≠ q) (hb : b ≠ backslash) (text : List UInt8) :
    literal q (b :: text) = (literal q text).map (Prod.map (b :: ·) id) := by
  cases text with
  | nil => simp [literal, hq]
  | cons c rest => rw [literal, if_neg hq, if_neg hb]

theorem literal_backslash (hq : q ≠ backslash) (c : UInt8) (rest : List UInt8) :
    literal q (backslash :: c :: rest) = (literal q rest).map (Prod.map (unescape c ++ ·) id) := by
  rw [literal, if_neg hq.symm, if_pos rfl]

theorem literal_doubled (q : UInt8) (rest : List UInt8) :
    literal q (q :: q :: rest) = (literal q rest).map (Prod.map (q :: ·) id) := by
  rw [literal, if_pos rfl, if_pos rfl]

/-- The quote closes the literal if no other one follows. -/
theorem literal_quote (h : rest.head? ≠ some q) : literal q (q :: rest) = some ([], rest) := by
  cases rest with
  | nil => rw [literal, if_pos rfl]
  | cons c rest => rw [literal, if_pos rfl, if_neg (by simpa using h)]

end Reading

/-- The bytes that end or change a literal. -/
def Special (b : UInt8) : Prop := b = quote ∨ b = backslash

instance (b : UInt8) : Decidable (Special b) := inferInstanceAs (Decidable (_ ∨ _))

/-- The bytes before which a backslash stands for itself. -/
def Kept (b : UInt8) : Prop := b = 0x25 ∨ b = 0x5f

instance (b : UInt8) : Decidable (Kept b) := inferInstanceAs (Decidable (_ ∨ _))

/-- Every backslash is followed by a byte before which it stands for itself. -/
def KeepsBackslashes : List UInt8 → Prop
  | [] => True
  | [b] => b ≠ backslash
  | b :: c :: text => (b = backslash → Kept c) ∧ KeepsBackslashes (c :: text)

instance keepsBackslashes.decidable : (text : List UInt8) → Decidable (KeepsBackslashes text)
  | [] => .isTrue trivial
  | [_] => inferInstanceAs (Decidable (_ ≠ _))
  | _ :: c :: text => @instDecidableAnd _ _ inferInstance (keepsBackslashes.decidable (c :: text))

/-- What follows a field in a statement does not begin with a special byte. -/
def Opens (rest : List UInt8) : Prop := ∀ b ∈ rest.head?, ¬ Special b

/-- What is written between quotes, and the value that it is to have. -/
structure Field where
  text : List UInt8
  value : List UInt8
  deriving DecidableEq, Repr

/-- The field is read back. -/
def Field.Reads (field : Field) : Prop :=
  ∀ rest, Opens rest → literal quote (field.text ++ quote :: rest) = some (field.value, rest)

/-- The field is never read as its value, wherever the literal may end then. -/
def Field.Breaks (field : Field) : Prop :=
  ∀ rest, Opens rest → ∀ after,
    literal quote (field.text ++ quote :: rest) ≠ some (field.value, after)

section Fields

variable {b c : UInt8} {text value rest after lag field : List UInt8}

theorem Opens.head?_ne (h : Opens rest) : rest.head? ≠ some quote :=
  fun hhead => h quote hhead (.inl rfl)

theorem literal_not_special (hb : ¬ Special b) (text : List UInt8) :
    literal quote (b :: text) = (literal quote text).map (Prod.map (b :: ·) id) :=
  literal_ordinary (fun heq => hb (.inl heq)) (fun heq => hb (.inr heq)) text

theorem literal_not_special_inv (hb : ¬ Special b)
    (h : literal quote (b :: text) = some (value, after)) :
    ∃ value', value = b :: value' ∧ literal quote text = some (value', after) := by
  rw [literal_not_special hb] at h
  obtain ⟨⟨value', after'⟩, hread, heq⟩ := Option.map_eq_some_iff.mp h
  obtain ⟨rfl, rfl⟩ := Prod.mk.inj heq
  exact ⟨value', rfl, hread⟩

/-- A literal that goes on into the rest has a byte of it that is not special. -/
theorem not_special_of_literal (hrest : Opens rest) (h : literal quote rest = some (value, after)) :
    ∃ b ∈ value, ¬ Special b := by
  cases rest with
  | nil => cases h
  | cons b rest =>
    have hb := hrest b rfl
    obtain ⟨value', rfl, -⟩ := literal_not_special_inv hb h
    exact ⟨b, List.mem_cons_self, hb⟩

/-- A special byte stands for itself after a backslash, and no other byte stands for one. -/
theorem unescape_special (hc : Special c) : unescape c = [c] := by
  obtain rfl | rfl := hc
  · rfl
  · rfl

/-- The letters that stand for a control character behind a backslash, and that character. -/
def controls : List (UInt8 × UInt8) :=
  [(0x30, 0x00), (0x62, 0x08), (0x6e, 0x0a), (0x72, 0x0d), (0x74, 0x09), (0x5a, 0x1a)]

/-- An escape begins with a special byte if such a byte is escaped, or if it keeps the backslash. -/
theorem unescape_cases (c : UInt8) :
    Special c ∧ unescape c = [c] ∨ Kept c ∧ unescape c = [backslash, c] ∨
      ∃ b, ¬ Special b ∧ unescape c = [b] := by
  by_cases hc : Special c
  · exact .inl ⟨hc, unescape_special hc⟩
  by_cases hkept : Kept c
  · refine .inr (.inl ⟨hkept, ?_⟩)
    obtain rfl | rfl := hkept
    · rfl
    · rfl
  refine .inr (.inr ?_)
  by_cases hcontrol : c ∈ controls.map Prod.fst
  · obtain ⟨⟨c, b⟩, hb, rfl⟩ := List.mem_map.mp hcontrol
    have hplain : ∀ p ∈ controls, p.2 ≠ quote ∧ p.2 ≠ backslash :=
      List.all_iff_forall_prop.mp (by decide)
    have hread : ∀ p ∈ controls, unescape p.1 = [p.2] := List.all_iff_forall_prop.mp (by decide)
    exact ⟨b, not_or.mpr (hplain _ hb), hread _ hb⟩
  · simp only [controls, List.map_cons, List.map_nil, List.mem_cons, List.not_mem_nil, or_false,
      not_or] at hcontrol
    obtain ⟨hnul, hb, hn, hr, ht, hz⟩ := hcontrol
    have hplain : ¬ (c = 0x25 ∨ c = 0x5f) := hkept
    refine ⟨c, hc, ?_⟩
    rw [unescape, if_neg hnul, if_neg hb, if_neg hn, if_neg hr, if_neg ht, if_neg hz, if_neg hplain]

theorem Kept.unescape (h : Kept c) : unescape c = [backslash, c] := by
  obtain rfl | rfl := h
  · rfl
  · rfl

theorem Kept.not_special (h : Kept c) : ¬ Special c := by
  obtain rfl | rfl := h
  · decide
  · decide

/-- A pair of special bytes is read as the second of them, unless the first is a quote and closes
the literal. -/
theorem literal_pair (hb : Special b) (hc : Special c) (h : b = quote → c = quote)
    (rest : List UInt8) :
    literal quote (b :: c :: rest) = (literal quote rest).map (Prod.map (c :: ·) id) := by
  obtain rfl | rfl := hb
  · rw [h rfl, literal_doubled]
  · rw [literal_backslash (by decide), unescape_special hc]
    rfl

theorem literal_ordinary_ne {due : UInt8} (hb : ¬ Special b) (hdue : Special due) :
    literal quote (b :: text) ≠ some (due :: value, after) := by
  intro h
  obtain ⟨value', hvalue, -⟩ := literal_not_special_inv hb h
  obtain ⟨rfl, -⟩ := List.cons.inj hvalue
  exact hb hdue

/-- A literal that begins with a pair of special bytes, and what is read behind it. -/
theorem literal_pair_inv (hb : Special b) (hc : Special c) (h : b = quote → c = quote)
    (hread : literal quote (b :: c :: text) = some (value, after)) :
    ∃ value', value = c :: value' ∧ literal quote text = some (value', after) := by
  rw [literal_pair hb hc h] at hread
  obtain ⟨⟨value', after'⟩, hrest, heq⟩ := Option.map_eq_some_iff.mp hread
  obtain ⟨rfl, rfl⟩ := Prod.mk.inj heq
  exact ⟨value', rfl, hrest⟩

/-- When a special byte that is due has been read, more of them may be due behind the others. -/
theorem special_lag {due : UInt8} {more : List UInt8} (hspecial : ∀ b ∈ due :: lag, Special b)
    (hmore : ∀ b ∈ more, Special b) : ∀ b ∈ lag ++ more, Special b :=
  List.forall_mem_append.mpr ⟨(List.forall_mem_cons.mp hspecial).2, hmore⟩

/-- No escape of a byte that is not special is read as a special byte that is due and the escape
behind it. -/
theorem literal_escape_ne_of_lag {due : UInt8} {value' : List UInt8} (hc : ¬ Special c)
    (hspecial : ∀ b ∈ due :: lag, Special b) :
    literal quote (backslash :: c :: text) ≠ some (due :: lag ++ backslash :: c :: value', after) := by
  rw [literal_backslash (by decide)]
  intro h
  obtain ⟨read, -, heq⟩ := Option.map_eq_some_iff.mp h
  have hvalue : unescape c ++ read.1 = due :: lag ++ backslash :: c :: value' := (Prod.mk.inj heq).1
  obtain ⟨hc', -⟩ | ⟨-, hkept⟩ | ⟨b, hb, hread⟩ := unescape_cases c
  · exact hc hc'
  · rw [hkept] at hvalue
    cases lag with
    | nil =>
      obtain ⟨hkept, -⟩ := List.cons.inj (List.cons.inj hvalue).2
      exact hc (.inr hkept)
    | cons b lag =>
      obtain ⟨rfl, -⟩ := List.cons.inj (List.cons.inj hvalue).2
      exact hc (hspecial c (List.mem_cons_of_mem _ List.mem_cons_self))
  · rw [hread] at hvalue
    obtain ⟨rfl, -⟩ := List.cons.inj hvalue
    exact hb (hspecial b List.mem_cons_self)

/-- Once a pair of bytes has been read as one, a field that is pasted as it is does not catch up
with its value: what is due are special bytes, and each of those takes a pair. -/
theorem literal_ne_of_lag (hlag : lag ≠ []) (hspecial : ∀ b ∈ lag, Special b) (hrest : Opens rest) :
    literal quote (field ++ quote :: rest) ≠ some (lag ++ field, after) := by
  induction field using List.twoStepInduction generalizing lag with
  | nil =>
    rw [List.nil_append, literal_quote hrest.head?_ne, List.append_nil]
    intro h
    exact hlag (Prod.mk.inj (Option.some.inj h)).1.symm
  | singleton b =>
    obtain ⟨due, lag, rfl⟩ := List.exists_cons_of_ne_nil hlag
    by_cases hb : Special b
    · -- The byte takes the closing quote with it, and the literal goes on into the rest.
      intro h
      obtain ⟨value', hvalue, hread⟩ := literal_pair_inv hb (.inl rfl) (fun _ => rfl) h
      obtain ⟨c, hc, hordinary⟩ := not_special_of_literal hrest hread
      have hmem : c ∈ due :: lag ++ [b] := by
        rw [hvalue]
        exact List.mem_cons_of_mem _ hc
      obtain hdue | hb' := List.mem_append.mp hmem
      · exact hordinary (hspecial c hdue)
      · exact hordinary (List.mem_singleton.mp hb' ▸ hb)
    · exact literal_ordinary_ne hb (hspecial due List.mem_cons_self)
  | cons_cons b c field ih _ =>
    obtain ⟨due, lag, rfl⟩ := List.exists_cons_of_ne_nil hlag
    have hdue : Special due := hspecial due List.mem_cons_self
    by_cases hb : Special b
    · by_cases hpair : Special c ∧ (b = quote → c = quote)
      · intro h
        obtain ⟨value', hvalue, hread⟩ := literal_pair_inv hb hpair.1 hpair.2 h
        obtain ⟨-, rfl⟩ := List.cons.inj hvalue
        have hspecial' := special_lag hspecial (List.forall_mem_cons.mpr
          ⟨hb, List.forall_mem_singleton.mpr hpair.1⟩)
        exact ih (by simp) hspecial' (by simpa using hread)
      · obtain rfl | rfl := hb
        · have hc : c ≠ quote := fun hc => hpair ⟨.inl hc, fun _ => hc⟩
          rw [List.cons_append, literal_quote (by simpa using hc)]
          intro h
          cases (Prod.mk.inj (Option.some.inj h)).1
        · have hc : ¬ Special c := fun hc => hpair ⟨hc, fun heq => absurd heq (by decide)⟩
          exact literal_escape_ne_of_lag hc hspecial
    · exact literal_ordinary_ne hb hdue

theorem keepsBackslashes_cons (hb : b ≠ backslash) :
    KeepsBackslashes (b :: text) ↔ KeepsBackslashes text := by
  cases text with
  | nil => exact iff_of_true hb trivial
  | cons c text => exact and_iff_right fun heq => absurd heq hb

theorem keepsBackslashes_of_not_mem (h : backslash ∉ text) : KeepsBackslashes text := by
  induction text with
  | nil => trivial
  | cons b text ih =>
    obtain ⟨hb, htext⟩ := not_or.mp (mt List.mem_cons.mpr h)
    exact (keepsBackslashes_cons (Ne.symm hb)).mpr (ih htext)

/-- A backslash that is read as itself is kept by the byte behind it. -/
theorem kept_of_literal (hc : ¬ Special c)
    (h : literal quote (backslash :: c :: text) = some (backslash :: c :: value, after)) :
    Kept c ∧ literal quote text = some (value, after) := by
  rw [literal_backslash (by decide)] at h
  obtain ⟨⟨value', after'⟩, hread, heq⟩ := Option.map_eq_some_iff.mp h
  obtain ⟨hvalue, rfl⟩ := Prod.mk.inj heq
  obtain ⟨hc', -⟩ | ⟨hkept, hescape⟩ | ⟨b, hb, hescape⟩ := unescape_cases c
  · exact absurd hc' hc
  · rw [hescape] at hvalue
    obtain ⟨-, rfl⟩ := List.cons.inj (List.cons.inj hvalue).2
    exact ⟨hkept, hread⟩
  · rw [hescape] at hvalue
    obtain ⟨rfl, -⟩ := List.cons.inj hvalue
    exact absurd (.inr rfl) hb

def asIs (text : List UInt8) : Field := ⟨text, text⟩

/-- A field that is pasted as it is and read as its value has no special bytes but backslashes
that are kept. -/
theorem plain_of_literal (hrest : Opens rest)
    (h : literal quote (field ++ quote :: rest) = some (field, after)) :
    quote ∉ field ∧ KeepsBackslashes field := by
  induction field using List.twoStepInduction with
  | nil => exact ⟨List.not_mem_nil, trivial⟩
  | singleton b =>
    by_cases hb : Special b
    · obtain ⟨value', hvalue, hread⟩ := literal_pair_inv hb (.inl rfl) (fun _ => rfl) h
      obtain ⟨-, rfl⟩ := List.cons.inj hvalue
      obtain ⟨c, hc, -⟩ := not_special_of_literal hrest hread
      cases hc
    · exact ⟨by simpa using fun heq => hb (.inl heq.symm), fun heq => hb (.inr heq)⟩
  | cons_cons b c field ih ih' =>
    by_cases hb : Special b
    · by_cases hpair : Special c ∧ (b = quote → c = quote)
      · obtain ⟨value', hvalue, hread⟩ := literal_pair_inv hb hpair.1 hpair.2 h
        obtain ⟨rfl, rfl⟩ := List.cons.inj hvalue
        exact absurd hread (literal_ne_of_lag (List.cons_ne_nil b []) (by simpa using hb) hrest)
      · obtain rfl | rfl := hb
        · have hc : c ≠ quote := fun hc => hpair ⟨.inl hc, fun _ => hc⟩
          rw [List.cons_append, literal_quote (by simpa using hc)] at h
          cases (Prod.mk.inj (Option.some.inj h)).1
        · have hc : ¬ Special c := fun hc => hpair ⟨hc, fun heq => absurd heq (by decide)⟩
          obtain ⟨hkept, hread⟩ := kept_of_literal hc h
          obtain ⟨hquote, hkeeps⟩ := ih hread
          refine ⟨?_, fun _ => hkept, ?_⟩
          · simp only [List.mem_cons, not_or]
            exact ⟨by decide, fun heq => hc (.inl heq.symm), hquote⟩
          · exact (keepsBackslashes_cons fun heq => hc (.inr heq)).mpr hkeeps
    · obtain ⟨value', hvalue, hread⟩ := literal_not_special_inv hb h
      obtain ⟨-, rfl⟩ := List.cons.inj hvalue
      obtain ⟨hquote, hkeeps⟩ := ih' c hread
      refine ⟨?_, fun heq => absurd (.inr heq) hb, hkeeps⟩
      exact List.not_mem_cons_of_ne_of_not_mem (fun heq => hb (.inl heq.symm)) hquote

theorem literal_of_plain (hquote : quote ∉ field) (hkeeps : KeepsBackslashes field)
    (hrest : Opens rest) : literal quote (field ++ quote :: rest) = some (field, rest) := by
  induction field using List.twoStepInduction with
  | nil => exact literal_quote hrest.head?_ne
  | singleton b =>
    have hb : b ≠ quote := fun heq => hquote (heq ▸ List.mem_singleton_self b)
    rw [List.singleton_append, literal_ordinary hb hkeeps, literal_quote hrest.head?_ne]
    rfl
  | cons_cons b c field ih ih' =>
    have hb : b ≠ quote := fun heq => hquote (heq ▸ List.mem_cons_self)
    have hquote' : quote ∉ c :: field := fun hmem => hquote (List.mem_cons_of_mem _ hmem)
    by_cases hescape : b = backslash
    · subst hescape
      have hkept := hkeeps.1 rfl
      have hc := hkept.not_special
      have hread := ih (fun hmem => hquote' (List.mem_cons_of_mem _ hmem))
        ((keepsBackslashes_cons fun heq => hc (.inr heq)).mp hkeeps.2)
      rw [List.cons_append, List.cons_append, literal_backslash (by decide), hread, hkept.unescape]
      rfl
    · rw [List.cons_append, literal_ordinary hb hescape, ih' c hquote' hkeeps.2]
      rfl

/-- The literal ends at the quote that is put behind the text, whatever it is read as. -/
def Closes (text : List UInt8) : Prop := (literal quote (text ++ [quote])).map Prod.snd = some []

instance (text : List UInt8) : Decidable (Closes text) := inferInstanceAs (Decidable (_ = _))

theorem literal_closed (h : literal quote (text ++ [quote]) = some (value, [])) (hrest : Opens rest) :
    literal quote (text ++ quote :: rest) = some (value, rest) := by
  induction text using List.twoStepInduction generalizing value with
  | nil =>
    obtain ⟨rfl, -⟩ := Prod.mk.inj (Option.some.inj h)
    exact literal_quote hrest.head?_ne
  | singleton b =>
    by_cases hb : Special b
    · obtain ⟨value', -, hread⟩ := literal_pair_inv hb (.inl rfl) (fun _ => rfl) h
      cases hread
    · obtain ⟨value', rfl, hread⟩ := literal_not_special_inv hb h
      obtain ⟨rfl, -⟩ := Prod.mk.inj (Option.some.inj hread)
      rw [List.singleton_append, literal_not_special hb, literal_quote hrest.head?_ne]
      rfl
  | cons_cons b c text ih ih' =>
    by_cases hescape : b = backslash
    · subst hescape
      rw [List.cons_append, List.cons_append, literal_backslash (by decide)] at h ⊢
      obtain ⟨⟨value', after⟩, hread, heq⟩ := Option.map_eq_some_iff.mp h
      obtain ⟨rfl, rfl⟩ := Prod.mk.inj heq
      rw [ih hread]
      rfl
    · by_cases hquote : b = quote
      · subst hquote
        by_cases hc : c = quote
        · subst hc
          rw [List.cons_append, List.cons_append, literal_doubled] at h ⊢
          obtain ⟨⟨value', after⟩, hread, heq⟩ := Option.map_eq_some_iff.mp h
          obtain ⟨rfl, rfl⟩ := Prod.mk.inj heq
          rw [ih hread]
          rfl
        · rw [List.cons_append, literal_quote (by simpa using hc)] at h
          cases (Prod.mk.inj (Option.some.inj h)).2
      · have hb : ¬ Special b := not_or.mpr ⟨hquote, hescape⟩
        obtain ⟨value', rfl, hread⟩ := literal_not_special_inv hb h
        rw [List.cons_append, literal_not_special hb, ih' c hread]
        rfl

/-- A text that closes is read as some value. -/
theorem Closes.reads (h : Closes text) : ∃ value, (Field.mk text value).Reads := by
  obtain ⟨⟨value, after⟩, hread, rfl⟩ := Option.map_eq_some_iff.mp h
  exact ⟨value, fun rest hrest => literal_closed hread hrest⟩

theorem asIs_reads (hquote : quote ∉ text) (hkeeps : KeepsBackslashes text) : (asIs text).Reads :=
  fun _ hrest => literal_of_plain hquote hkeeps hrest

theorem asIs_breaks (h : ¬ (quote ∉ text ∧ KeepsBackslashes text)) : (asIs text).Breaks :=
  fun _ hrest _ hread => h (plain_of_literal hrest hread)

theorem Field.Breaks.not_reads {field : Field} (h : field.Breaks) : ¬ field.Reads := by
  have hnil : Opens [] := nofun
  exact fun hreads => h [] hnil [] (hreads [] hnil)

theorem asIs_reads_iff : (asIs text).Reads ↔ quote ∉ text ∧ KeepsBackslashes text := by
  refine ⟨fun hreads => ?_, fun h => asIs_reads h.1 h.2⟩
  by_contra hnot
  exact (asIs_breaks hnot).not_reads hreads

theorem asIs_reads_or_breaks (text : List UInt8) : (asIs text).Reads ∨ (asIs text).Breaks := by
  rw [asIs_reads_iff]
  exact or_iff_not_imp_left.mpr asIs_breaks

end Fields

/-- A piece of a statement: SQL as it stands there, or a field between quotes. -/
inductive Piece where
  | sql (text : List UInt8)
  | quoted (field : Field)
  deriving DecidableEq, Repr

def Piece.render : Piece → List UInt8
  | sql text => text
  | quoted field => quote :: (field.text ++ [quote])

/-- What the piece is meant to be. -/
def Piece.meaning : Piece → List Token
  | sql text => text.map .byte
  | quoted field => [.text field.value]

def render (pieces : List Piece) : List UInt8 := pieces.flatMap Piece.render

def meaning (pieces : List Piece) : List Token := pieces.flatMap Piece.meaning

/-- The SQL between the fields has no literals, and separates them. -/
def WellFormed : List Piece → Prop
  | [] => True
  | .sql text :: pieces => (∀ b ∈ text, ¬ Special b ∧ b ≠ doubleQuote) ∧ WellFormed pieces
  | .quoted _ :: pieces => Opens (render pieces) ∧ WellFormed pieces

section Statements

variable {field : Field} {pieces : List Piece} {text : List UInt8}

theorem tokens_sql (htext : ∀ b ∈ text, ¬ Special b ∧ b ≠ doubleQuote) (rest : List UInt8) :
    tokens (text ++ rest) = (tokens rest).map (text.map Token.byte ++ ·) := by
  induction text with
  | nil => simp
  | cons b text ih =>
    obtain ⟨⟨hspecial, hdouble⟩, htext⟩ := List.forall_mem_cons.mp htext
    have hb : ¬ (b = quote ∨ b = doubleQuote) :=
      fun h => h.elim (fun heq => hspecial (.inl heq)) hdouble
    rw [List.cons_append, tokens, if_neg hb, ih htext, Option.map_map]
    rfl

theorem tokens_quote (text : List UInt8) :
    tokens (quote :: text) =
      (literal quote text).bind fun read => (tokens read.2).map (.text read.1 :: ·) := by
  rw [tokens, if_pos (.inl rfl)]
  split
  · next hnone => rw [hnone]; rfl
  · next value rest hread => rw [hread]; rfl

/-- A statement is read as it was meant exactly if its fields are read back. -/
theorem tokens_render (hwf : WellFormed pieces)
    (hfields : ∀ field, .quoted field ∈ pieces → field.Reads ∨ field.Breaks) :
    tokens (render pieces) = some (meaning pieces) ↔
      ∀ field, .quoted field ∈ pieces → field.Reads := by
  induction pieces with
  | nil => exact iff_of_true (by rw [render, List.flatMap_nil, tokens]; rfl) (fun _ h => by cases h)
  | cons piece pieces ih =>
    have ih := fun hwf => ih hwf fun field hfield => hfields field (List.mem_cons_of_mem _ hfield)
    cases piece with
    | sql text =>
      have hrest : tokens (render (.sql text :: pieces)) = some (meaning (.sql text :: pieces)) ↔
          tokens (render pieces) = some (meaning pieces) := by
        have happend : render (.sql text :: pieces) = text ++ render pieces := rfl
        rw [happend, tokens_sql hwf.1]
        exact (Option.map_injective fun _ _ => List.append_cancel_left).eq_iff' rfl
      refine hrest.trans ((ih hwf.2).trans (forall_congr' fun field => ?_))
      rw [List.mem_cons, or_iff_right (by exact nofun)]
    | quoted field =>
      have hread : tokens (render (.quoted field :: pieces)) =
          (literal quote (field.text ++ quote :: render pieces)).bind fun read =>
            (tokens read.2).map (.text read.1 :: ·) := by
        rw [← tokens_quote]
        exact congrArg tokens (by simp [render, Piece.render])
      have hmem : (∀ other, .quoted other ∈ Piece.quoted field :: pieces → other.Reads) ↔
          field.Reads ∧ ∀ other, .quoted other ∈ pieces → other.Reads := by
        simp
      rw [hread, hmem]
      obtain hreads | hbreaks := hfields field List.mem_cons_self
      · rw [hreads _ hwf.1, Option.bind_some, and_iff_right hreads]
        exact ((Option.map_injective fun _ _ => List.tail_eq_of_cons_eq).eq_iff' rfl).trans (ih hwf.2)
      · refine iff_of_false ?_ fun h => hbreaks _ hwf.1 _ (h.1 _ hwf.1)
        intro h
        obtain ⟨read, hliteral, hrest⟩ := Option.bind_eq_some_iff.mp h
        obtain ⟨rest, -, heq⟩ := Option.map_eq_some_iff.mp hrest
        obtain ⟨hvalue, -⟩ := List.cons.inj heq
        refine hbreaks _ hwf.1 read.2 (hliteral.trans ?_)
        rw [← Token.text.inj hvalue]

theorem Opens.append {text rest : List UInt8} (htext : Opens text) (hrest : Opens rest) :
    Opens (text ++ rest) := by
  cases text with
  | nil => exact hrest
  | cons b text => exact htext

theorem render_append (pieces more : List Piece) :
    render (pieces ++ more) = render pieces ++ render more := List.flatMap_append

theorem wellFormed_append {more : List Piece} (hwf : WellFormed pieces) (hmore : WellFormed more)
    (hopens : Opens (render more)) : WellFormed (pieces ++ more) := by
  induction pieces with
  | nil => exact hmore
  | cons piece pieces ih =>
    cases piece with
    | sql text => exact ⟨hwf.1, ih hwf.2⟩
    | quoted field =>
      have hrest : Opens (render (pieces ++ more)) := by
        rw [render_append]
        exact hwf.1.append hopens
      exact ⟨hrest, ih hwf.2⟩

/-- SQL that may stand between fields. -/
def IsSql (text : List UInt8) : Prop := text ≠ [] ∧ ∀ b ∈ text, ¬ Special b ∧ b ≠ doubleQuote

instance (text : List UInt8) : Decidable (IsSql text) :=
  @instDecidableAnd _ _ inferInstance (List.decidableBAll _ _)

theorem IsSql.opens (h : IsSql text) (rest : List UInt8) : Opens (text ++ rest) := by
  obtain ⟨b, text, rfl⟩ := List.exists_cons_of_ne_nil h.1
  intro b' hb'
  obtain rfl := Option.some.inj hb'
  exact (h.2 b List.mem_cons_self).1

/-- Pieces of SQL and fields in turn. -/
def interleave : List (List UInt8) → List Field → List Piece
  | sql :: sqls, field :: fields => .sql sql :: .quoted field :: interleave sqls fields
  | sqls, [] => sqls.map .sql
  | [], _ :: _ => []

@[simp] theorem interleave_nil (sqls : List (List UInt8)) :
    interleave sqls [] = sqls.map .sql := by
  cases sqls with
  | nil => rfl
  | cons sql sqls => rfl

theorem mem_interleave {sqls : List (List UInt8)} {fields : List Field}
    (hlength : fields.length ≤ sqls.length) : .quoted field ∈ interleave sqls fields ↔
      field ∈ fields := by
  induction fields generalizing sqls with
  | nil => simp
  | cons other fields ih =>
    cases sqls with
    | nil => simp at hlength
    | cons sql sqls => simp [interleave, ih (Nat.le_of_succ_le_succ hlength)]

theorem render_interleave {fields fields' : List Field}
    (h : fields.map Field.text = fields'.map Field.text) (sqls : List (List UInt8)) :
    render (interleave sqls fields) = render (interleave sqls fields') := by
  induction fields generalizing sqls fields' with
  | nil =>
    obtain rfl := List.map_eq_nil_iff.mp h.symm
    rfl
  | cons field fields ih =>
    obtain ⟨field', rest, rfl, htext, hrest⟩ := List.map_eq_cons_iff.mp h.symm
    cases sqls with
    | nil => rfl
    | cons sql sqls =>
      have htail := ih hrest.symm sqls
      simp only [render] at htail
      simp only [interleave, render, List.flatMap_cons, Piece.render, htext, htail]

theorem opens_interleave {sqls : List (List UInt8)} (hsqls : ∀ sql ∈ sqls, IsSql sql)
    (fields : List Field) : Opens (render (interleave sqls fields)) := by
  cases sqls with
  | nil => cases fields <;> exact nofun
  | cons sql sqls =>
    have hsql := hsqls sql List.mem_cons_self
    cases fields with
    | nil => exact hsql.opens _
    | cons field fields => exact hsql.opens _

theorem wellFormed_interleave {sqls : List (List UInt8)} (hsqls : ∀ sql ∈ sqls, IsSql sql)
    (fields : List Field) : WellFormed (interleave sqls fields) := by
  induction fields generalizing sqls with
  | nil =>
    rw [interleave_nil]
    induction sqls with
    | nil => trivial
    | cons sql sqls ih =>
      obtain ⟨hsql, hsqls⟩ := List.forall_mem_cons.mp hsqls
      exact ⟨hsql.2, ih hsqls⟩
  | cons field fields ih =>
    cases sqls with
    | nil => trivial
    | cons sql sqls =>
      obtain ⟨hsql, hsqls⟩ := List.forall_mem_cons.mp hsqls
      exact ⟨hsql.2, opens_interleave hsqls fields, ih hsqls⟩

end Statements

end SqlLiteral
