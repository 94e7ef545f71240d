import ImServer.Lib.SqlLiteral

/-!
# The filter of SQL texts

What texts go through before they are put into a statement (base/util.cpp): quotes are doubled,
and semicolons become full-width ones. The filter leaves backslashes alone. The parameters of a
query of acl (base/acl/lib_acl_cpp/src/db/query.cpp) are escaped instead, and always read back.
-/

namespace ImServer

open SqlLiteral

def semicolon : UInt8 := 0x3b

def fullWidthSemicolon : List UInt8 := [0xef, 0xbc, 0x9b]

/-- What is replaced is one byte here. -/
def stringReplace (src : UInt8) (dst : List UInt8) (text : List UInt8) : List UInt8 :=
  text.flatMap fun b => if b = src then dst else [b]

def sqlFilter (source : List UInt8) : List UInt8 :=
  stringReplace semicolon fullWidthSemicolon (stringReplace quote [quote, quote] source)

/-- A field that is filtered. -/
def filtered (source : List UInt8) : Field := ⟨sqlFilter source, source⟩

/-- What `query::escape` makes of a byte. -/
def escapeByte (b : UInt8) : List UInt8 :=
  if b = 0x00 then [backslash, 0x30]
  else if b = 0x1a then [backslash, 0x5a]
  else if b = backslash ∨ b = quote then [backslash, b]
  else [b]

/-- A parameter of a query of acl, which is escaped and put between quotes. -/
def parameter (source : List UInt8) : Field := ⟨source.flatMap escapeByte, source⟩

section Filter

variable {b c : UInt8} {lag source rest value after : List UInt8}

@[simp] theorem sqlFilter_nil : sqlFilter [] = [] := rfl

theorem sqlFilter_quote (source : List UInt8) :
    sqlFilter (quote :: source) = quote :: quote :: sqlFilter source := rfl

theorem sqlFilter_semicolon (source : List UInt8) :
    sqlFilter (semicolon :: source) = 0xef :: 0xbc :: 0x9b :: sqlFilter source := rfl

theorem sqlFilter_cons (hquote : b ≠ quote) (hsemi : b ≠ semicolon) (source : List UInt8) :
    sqlFilter (b :: source) = b :: sqlFilter source := by
  simp [sqlFilter, stringReplace, hquote, hsemi]

/-- A quote in front of a filtered text closes the literal, or is due to quotes that are doubled:
what is behind its value stays behind. -/
theorem literal_odd_ne_of_lag (hlag : lag ≠ []) (hspecial : ∀ b ∈ lag, Special b)
    (hrest : Opens rest) :
    literal quote (quote :: (sqlFilter source ++ quote :: rest)) ≠ some (lag ++ source, after) := by
  induction source generalizing lag with
  | nil =>
    rw [sqlFilter_nil, List.append_nil]
    intro h
    obtain ⟨value', rfl, hread⟩ := literal_pair_inv (.inl rfl) (.inl rfl) (fun _ => rfl) h
    obtain ⟨b, hb, hordinary⟩ := not_special_of_literal hrest hread
    exact hordinary (hspecial b (List.mem_cons_of_mem _ hb))
  | cons b source ih =>
    obtain ⟨due, lag, rfl⟩ := List.exists_cons_of_ne_nil hlag
    by_cases hquote : b = quote
    · subst hquote
      rw [sqlFilter_quote]
      intro h
      obtain ⟨value', hvalue, hread⟩ := literal_pair_inv (.inl rfl) (.inl rfl) (fun _ => rfl) h
      obtain ⟨-, rfl⟩ := List.cons.inj hvalue
      have hspecial' := special_lag hspecial (List.forall_mem_singleton.mpr (.inl rfl))
      exact ih (by simp) hspecial' (by simpa using hread)
    · have hhead : (sqlFilter (b :: source) ++ quote :: rest).head? ≠ some quote := by
        by_cases hsemi : b = semicolon
        · subst hsemi
          rw [sqlFilter_semicolon]
          simp only [List.cons_append, List.head?_cons]
          decide
        · rw [sqlFilter_cons hquote hsemi]
          simpa using hquote
      rw [literal_quote hhead]
      intro h
      cases (Prod.mk.inj (Option.some.inj h)).1

/-- The escape of a semicolon is read as the first byte of what it is replaced by. -/
theorem literal_escaped_semicolon_ne {due : UInt8} (hdue : Special due) :
    literal quote (backslash :: (sqlFilter (semicolon :: source) ++ rest)) ≠
      some (due :: value, after) := by
  rw [sqlFilter_semicolon, List.cons_append, literal_backslash (by decide)]
  intro h
  obtain ⟨read, -, heq⟩ := Option.map_eq_some_iff.mp h
  obtain ⟨rfl, -⟩ := List.cons.inj (Prod.mk.inj heq).1
  exact absurd hdue (by decide)

theorem literal_backslash_ne_of_lag {due : UInt8} (hspecial : ∀ b ∈ due :: lag, Special b)
    (hrest : Opens rest)
    (ih : ∀ source', source'.length < source.length → ∀ lag, lag ≠ [] →
      (∀ b ∈ lag, Special b) →
      literal quote (sqlFilter source' ++ quote :: rest) ≠ some (lag ++ source', after)) :
    literal quote (backslash :: (sqlFilter source ++ quote :: rest)) ≠
      some (due :: lag ++ backslash :: source, after) := by
  have hdue : Special due := hspecial due List.mem_cons_self
  have hbackslash : ∀ c, Special c → ∀ b ∈ lag ++ [backslash, c], Special b := fun c hc =>
    special_lag hspecial (List.forall_mem_cons.mpr ⟨.inr rfl, List.forall_mem_singleton.mpr hc⟩)
  cases source with
  | nil =>
    intro h
    obtain ⟨value', hvalue, hread⟩ :=
      literal_pair_inv (.inr rfl) (.inl rfl) (fun heq => absurd heq (by decide)) h
    obtain ⟨-, rfl⟩ := List.cons.inj hvalue
    obtain ⟨b, hb, hordinary⟩ := not_special_of_literal hrest hread
    exact hordinary (special_lag hspecial (List.forall_mem_singleton.mpr (.inr rfl)) b hb)
  | cons c source =>
    by_cases hquote : c = quote
    · subst hquote
      rw [sqlFilter_quote]
      intro h
      obtain ⟨value', hvalue, hread⟩ :=
        literal_pair_inv (.inr rfl) (.inl rfl) (fun heq => absurd heq (by decide)) h
      obtain ⟨-, rfl⟩ := List.cons.inj hvalue
      exact literal_odd_ne_of_lag (by simp) (hbackslash quote (.inl rfl)) hrest
        (by simpa using hread)
    · by_cases hsemi : c = semicolon
      · subst hsemi
        exact literal_escaped_semicolon_ne hdue
      · rw [sqlFilter_cons hquote hsemi]
        by_cases hc : Special c
        · intro h
          obtain ⟨value', hvalue, hread⟩ :=
            literal_pair_inv (.inr rfl) hc (fun heq => absurd heq (by decide)) h
          obtain ⟨-, rfl⟩ := List.cons.inj hvalue
          exact ih source (Nat.lt_succ_self _) _ (by simp) (hbackslash c hc) (by simpa using hread)
        · exact literal_escape_ne_of_lag hc hspecial

/-- Once a pair of backslashes has been read as one, a filtered field does not catch up with its
value either: doubled quotes leave as much due, and escapes leave more. -/
theorem literal_filtered_ne_of_lag (hlag : lag ≠ []) (hspecial : ∀ b ∈ lag, Special b)
    (hrest : Opens rest) :
    literal quote (sqlFilter source ++ quote :: rest) ≠ some (lag ++ source, after) := by
  induction hlength : source.length using Nat.strongRecOn generalizing source lag with
  | _ n ih =>
  subst hlength
  obtain ⟨due, lag, rfl⟩ := List.exists_cons_of_ne_nil hlag
  have hdue : Special due := hspecial due List.mem_cons_self
  cases source with
  | nil =>
    rw [sqlFilter_nil, List.nil_append, literal_quote hrest.head?_ne]
    intro h
    cases (Prod.mk.inj (Option.some.inj h)).1
  | cons b source =>
    by_cases hquote : b = quote
    · subst hquote
      rw [sqlFilter_quote]
      intro h
      obtain ⟨value', hvalue, hread⟩ := literal_pair_inv (.inl rfl) (.inl rfl) (fun _ => rfl) h
      obtain ⟨-, rfl⟩ := List.cons.inj hvalue
      have hspecial' := special_lag hspecial (List.forall_mem_singleton.mpr (.inl rfl))
      exact ih _ (Nat.lt_succ_self _) (by simp) hspecial' rfl (by simpa using hread)
    · by_cases hsemi : b = semicolon
      · subst hsemi
        rw [sqlFilter_semicolon]
        exact literal_ordinary_ne (by decide) hdue
      · rw [sqlFilter_cons hquote hsemi]
        by_cases hescape : b = backslash
        · subst hescape
          exact literal_backslash_ne_of_lag hspecial hrest fun source' hlt lag' hlag' hspecial' =>
            ih source'.length (Nat.lt_succ_of_lt hlt) hlag' hspecial' rfl
        · exact literal_ordinary_ne (not_or.mpr ⟨hquote, hescape⟩) hdue

/-- A backslash that is read as itself in a filtered field is kept by the byte behind it. -/
theorem kept_of_filtered (hrest : Opens rest)
    (h : literal quote (backslash :: (sqlFilter source ++ quote :: rest)) =
      some (backslash :: source, after)) :
    ∃ c source', source = c :: source' ∧ Kept c ∧
      literal quote (sqlFilter source' ++ quote :: rest) = some (source', after) := by
  cases source with
  | nil =>
    obtain ⟨value', hvalue, -⟩ :=
      literal_pair_inv (.inr rfl) (.inl rfl) (fun heq => absurd heq (by decide)) h
    cases (List.cons.inj hvalue).1
  | cons c source =>
    by_cases hquote : c = quote
    · subst hquote
      rw [sqlFilter_quote] at h
      obtain ⟨value', hvalue, -⟩ :=
        literal_pair_inv (.inr rfl) (.inl rfl) (fun heq => absurd heq (by decide)) h
      cases (List.cons.inj hvalue).1
    · by_cases hsemi : c = semicolon
      · subst hsemi
        exact absurd h (literal_escaped_semicolon_ne (.inr rfl))
      · rw [sqlFilter_cons hquote hsemi] at h
        by_cases hc : Special c
        · obtain ⟨value', hvalue, hread⟩ :=
            literal_pair_inv (.inr rfl) hc (fun heq => absurd heq (by decide)) h
          obtain ⟨rfl, rfl⟩ := List.cons.inj hvalue
          exact absurd hread (literal_filtered_ne_of_lag (List.cons_ne_nil _ [])
            (List.forall_mem_singleton.mpr (.inr rfl)) hrest)
        · exact ⟨c, source, rfl, kept_of_literal hc h⟩

/-- A filtered field that is read as its value has no semicolons, and no backslashes but those
that are kept. -/
theorem plain_of_filtered (hrest : Opens rest)
    (h : literal quote (sqlFilter source ++ quote :: rest) = some (source, after)) :
    semicolon ∉ source ∧ KeepsBackslashes source := by
  induction hlength : source.length using Nat.strongRecOn generalizing source with
  | _ n ih =>
  subst hlength
  cases source with
  | nil => exact ⟨List.not_mem_nil, trivial⟩
  | cons b source =>
    by_cases hescape : b = backslash
    · subst hescape
      rw [sqlFilter_cons (by decide) (by decide)] at h
      obtain ⟨c, source', rfl, hkept, hread⟩ := kept_of_filtered hrest h
      obtain ⟨hsemi, hkeeps⟩ := ih _ (by simp only [List.length_cons]; omega) hread rfl
      have hc := hkept.not_special
      refine ⟨?_, fun _ => hkept, (keepsBackslashes_cons fun heq => hc (.inr heq)).mpr hkeeps⟩
      simp only [List.mem_cons, not_or]
      refine ⟨by decide, ?_, hsemi⟩
      rintro rfl
      exact absurd hkept (by decide)
    · have htail : literal quote (sqlFilter source ++ quote :: rest) = some (source, after) ∧
          b ≠ semicolon := by
        by_cases hquote : b = quote
        · subst hquote
          rw [sqlFilter_quote] at h
          obtain ⟨value', hvalue, hread⟩ :=
            literal_pair_inv (.inl rfl) (.inl rfl) (fun _ => rfl) h
          obtain ⟨-, rfl⟩ := List.cons.inj hvalue
          exact ⟨hread, by decide⟩
        · have hb : ¬ Special b := not_or.mpr ⟨hquote, hescape⟩
          by_cases hsemi : b = semicolon
          · subst hsemi
            rw [sqlFilter_semicolon] at h
            obtain ⟨value', hvalue, -⟩ := literal_not_special_inv (by decide) h
            cases (List.cons.inj hvalue).1
          · rw [sqlFilter_cons hquote hsemi] at h
            obtain ⟨value', hvalue, hread⟩ := literal_not_special_inv hb h
            obtain ⟨-, rfl⟩ := List.cons.inj hvalue
            exact ⟨hread, hsemi⟩
      obtain ⟨hsemi, hkeeps⟩ := ih _ (Nat.lt_succ_self _) htail.1 rfl
      exact ⟨List.not_mem_cons_of_ne_of_not_mem htail.2.symm hsemi,
        (keepsBackslashes_cons hescape).mpr hkeeps⟩

theorem literal_of_filtered (hsemi : semicolon ∉ source) (hkeeps : KeepsBackslashes source)
    (hrest : Opens rest) :
    literal quote (sqlFilter source ++ quote :: rest) = some (source, rest) := by
  induction hlength : source.length using Nat.strongRecOn generalizing source with
  | _ n ih =>
  subst hlength
  cases source with
  | nil => exact literal_quote hrest.head?_ne
  | cons b source =>
    obtain ⟨hne, hsource⟩ := not_or.mp (mt List.mem_cons.mpr hsemi)
    by_cases hescape : b = backslash
    · subst hescape
      cases source with
      | nil => exact absurd rfl hkeeps
      | cons c source =>
        obtain ⟨hnec, hsource'⟩ := not_or.mp (mt List.mem_cons.mpr hsource)
        have hkept := hkeeps.1 rfl
        have hc := hkept.not_special
        have hkeeps' : KeepsBackslashes source :=
          (keepsBackslashes_cons fun heq => hc (.inr heq)).mp hkeeps.2
        have hread := ih source.length (Nat.lt_succ_of_lt (Nat.lt_succ_self _)) hsource' hkeeps' rfl
        rw [sqlFilter_cons (by decide) (by decide),
          sqlFilter_cons (fun heq => hc (.inl heq)) (Ne.symm hnec), List.cons_append,
          List.cons_append, literal_backslash (by decide), hread, hkept.unescape]
        rfl
    · have hread := ih _ (Nat.lt_succ_self _) hsource ((keepsBackslashes_cons hescape).mp hkeeps) rfl
      by_cases hquote : b = quote
      · subst hquote
        rw [sqlFilter_quote, List.cons_append, List.cons_append, literal_doubled, hread]
        rfl
      · rw [sqlFilter_cons hquote (Ne.symm hne), List.cons_append,
          literal_not_special (not_or.mpr ⟨hquote, hescape⟩), hread]
        rfl

theorem filtered_reads (hsemi : semicolon ∉ source) (hkeeps : KeepsBackslashes source) :
    (filtered source).Reads :=
  fun _ hrest => literal_of_filtered hsemi hkeeps hrest

theorem filtered_breaks (h : ¬ (semicolon ∉ source ∧ KeepsBackslashes source)) :
    (filtered source).Breaks :=
  fun _ hrest _ hread => h (plain_of_filtered hrest hread)

theorem filtered_reads_iff :
    (filtered source).Reads ↔ semicolon ∉ source ∧ KeepsBackslashes source := by
  refine ⟨fun hreads => ?_, fun h => filtered_reads h.1 h.2⟩
  by_contra hnot
  exact (filtered_breaks hnot).not_reads hreads

theorem filtered_reads_or_breaks (source : List UInt8) :
    (filtered source).Reads ∨ (filtered source).Breaks := by
  rw [filtered_reads_iff]
  exact or_iff_not_imp_left.mpr filtered_breaks

/-- The byte that `escapeByte` has made two of is read back as one. -/
theorem literal_escapeByte (b : UInt8) (text : List UInt8) :
    literal quote (escapeByte b ++ text) = (literal quote text).map (Prod.map (b :: ·) id) := by
  unfold escapeByte
  split
  · next hnul =>
    rw [hnul]
    exact literal_backslash (by decide) 0x30 text
  · split
    · next hsub =>
      rw [hsub]
      exact literal_backslash (by decide) 0x5a text
    · split
      · next hspecial =>
        rw [List.cons_append, List.singleton_append, literal_backslash (by decide),
          unescape_special hspecial.symm]
        rfl
      · next hspecial => exact literal_not_special (fun h => hspecial h.symm) text

theorem parameter_reads (source : List UInt8) : (parameter source).Reads := by
  intro rest hrest
  simp only [parameter]
  induction source with
  | nil => exact literal_quote hrest.head?_ne
  | cons b source ih =>
    rw [List.flatMap_cons, List.append_assoc, literal_escapeByte, ih]
    rfl

end Filter

end ImServer
