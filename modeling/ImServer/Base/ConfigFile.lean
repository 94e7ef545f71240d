import ImServer.Lib.CText
import ImServer.Lib.Run

/-!
# The configuration file

`CConfigFileReader` (base/configfilereader.cpp). The file has a line for each name with its value,
and what is behind a number sign is not read. A value that is set is put into the map, and the whole
map is written to the file, which has been emptied before.

Each line goes through an array of 128 bytes. Nothing that is set is looked at, so a name or a value
may be one that is not read again as it was written.
-/

namespace ImServer

namespace CConfigFileReader

/-- A string of the C library. -/
abbrev CString := { text : List UInt8 // 0 ∉ text }

/-- `m_config_map`, in the order of the names, which is that of a `std::map`. -/
abbrev ConfigMap := List (List UInt8 × List UInt8)

/-- A value is put into the map. One that is there is replaced or kept. -/
def put (replace : Bool) (name value : List UInt8) : ConfigMap → ConfigMap
  | [] => [(name, value)]
  | (name', value') :: rest =>
    if name < name' then (name, value) :: (name', value') :: rest
    else if name = name' then (name', if replace then value else value') :: rest
    else (name', value') :: put replace name value rest

def getConfigName (map : ConfigMap) (name : List UInt8) : Option (List UInt8) :=
  List.lookup name map

def isBlank (c : UInt8) : Bool := c = 32 || c = 9

def trimSpace (name : List UInt8) : Option (List UInt8) :=
  let start := name.dropWhile isBlank
  if start = [] then none else some (start.reverse.dropWhile isBlank).reverse

def parseLine (line : List UInt8) (map : ConfigMap) : ConfigMap :=
  if 61 ∈ line then
    let key := trimSpace (line.takeWhile (· ≠ 61))
    let value := trimSpace ((line.dropWhile (· ≠ 61)).drop 1)
    match key, value with
    | some key, some value => put false key value map
    | _, _ => map
  else map

/-- `fgets` into an array of 256 bytes: what is read, with the end of the line, and the rest. -/
def fgets (text : List UInt8) : List UInt8 × List UInt8 :=
  let most := text.take 255
  let line := most.takeWhile (· ≠ 10)
  let n := if line.length < most.length then line.length + 1 else most.length
  (text.take n, text.drop n)

/-- A line without its end and what is behind a number sign. -/
def readLine (buf : List UInt8) (map : ConfigMap) : ConfigMap :=
  let buf := if buf.getLast? = some 10 then buf.dropLast else buf
  let buf := buf.takeWhile (· ≠ 35)
  if buf = [] then map else parseLine buf map

/-- The loop of `_LoadFile`. A line that begins with a NUL is read in front of the array. -/
def loadLines : ℕ → List UInt8 → ConfigMap → Option ConfigMap
  | 0, _, map => some map
  | fuel + 1, text, map =>
    if text = [] then some map
    else
      let (read, rest) := fgets text
      let buf := CText.cStr read
      if buf = [] then none else loadLines fuel rest (readLine buf map)

/-- `_LoadFile` of a file that can be opened. Each turn takes something of the text. -/
def loadFile (text : List UInt8) : Option ConfigMap := loadLines text.length text []

/-- `char szPaire[128]`. -/
def pairSize : ℕ := 128

/-- A line as it is written. -/
def pairText (pair : List UInt8 × List UInt8) : List UInt8 :=
  CText.snprintf pairSize (pair.1 ++ 61 :: (pair.2 ++ [10]))

/-- What `_WriteFIle` writes. -/
def fileText (map : ConfigMap) : List UInt8 := map.flatMap pairText

/-- What becomes of the file: it cannot be opened; it is emptied and something is written until a
call fails; the same without any error that is looked at; or all is written. -/
inductive Disk where
  | noOpen
  | failed (n : ℕ)
  | lost (n : ℕ)
  | written
  deriving DecidableEq, Repr

/-- The file, and `m_config_map`. `latest` is the latest value of each name, and `kept` the same as
it was when the file was loaded or a call of `SetConfigValue` succeeded. -/
structure State where
  file : List UInt8
  map : ConfigMap
  latest : List UInt8 → Option (List UInt8)
  kept : List UInt8 → Option (List UInt8)

/-- A call of `SetConfigValue`, and what becomes of the file that it writes. -/
structure SetCall where
  name : CString
  value : CString
  disk : Disk

/-- `_WriteFIle`: the file, and what is returned. -/
def writeFile (file : List UInt8) (map : ConfigMap) : Disk → List UInt8 × ℤ
  | .noOpen => (file, -1)
  | .failed n => ((fileText map).take n, -1)
  | .lost n => ((fileText map).take n, 0)
  | .written => (fileText map, 0)

/-- `SetConfigValue`. The map has the value also if the file could not be written; `kept` is what a
write that succeeds has kept. -/
def State.setConfigValue (s : State) (call : SetCall) : State :=
  let map := put true call.name call.value s.map
  let latest := Function.update s.latest call.name (some call.value.1)
  let (file, ret) := writeFile s.file map call.disk
  { file, map, latest, kept := if ret = 0 then latest else s.kept }

def step (s : State) (call : SetCall) : Option State := some (s.setConfigValue call)

/-- A file that has been loaded. What the map says then is what the file keeps. -/
def loaded (file : List UInt8) (map : ConfigMap) : State where
  file
  map
  latest := getConfigName map
  kept := getConfigName map

/-- When the file is loaded again, each name has the value that was kept, and there is no other
name. -/
def Survives (s : State) : Prop :=
  ∃ map, loadFile s.file = some map ∧ getConfigName map = s.kept

/-- A text that is read again as it was written: it is not empty, has no blanks around it, and no
end of line, number sign or NUL inside. -/
structure Clean (text : List UInt8) : Prop where
  first : text.head?.any (fun c => !isBlank c)
  last : text.getLast?.any (fun c => !isBlank c)
  inside : ∀ c ∈ text, c ∉ ([0, 10, 35] : List UInt8)

instance (text : List UInt8) : Decidable (Clean text) :=
  decidable_of_iff (text.head?.any (fun c => !isBlank c) ∧ text.getLast?.any (fun c => !isBlank c) ∧
      text.all (· ∉ ([0, 10, 35] : List UInt8)))
    ⟨fun h => ⟨h.1, h.2.1, fun c hc => of_decide_eq_true (List.all_eq_true.mp h.2.2 c hc)⟩,
      fun h => ⟨h.first, h.last,
        List.all_eq_true.mpr fun c hc => decide_eq_true (h.inside c hc)⟩⟩

/-- A name and a value that are read again. -/
def CleanPair (pair : List UInt8 × List UInt8) : Prop :=
  Clean pair.1 ∧ 61 ∉ pair.1 ∧ Clean pair.2

instance (pair : List UInt8 × List UInt8) : Decidable (CleanPair pair) := instDecidableAnd

/-- Each line fits the array. Behind the last one the end of the line may be missing. -/
def Savable : ConfigMap → Prop
  | [] => True
  | pair :: rest =>
    CleanPair pair ∧
      (pair.1.length + pair.2.length + 2 < pairSize ∨
        rest = [] ∧ pair.1.length + pair.2.length + 2 = pairSize) ∧ Savable rest

instance decidableSavable : (map : ConfigMap) → Decidable (Savable map)
  | [] => .isTrue trivial
  | _ :: rest =>
    have := decidableSavable rest
    inferInstanceAs (Decidable (_ ∧ _ ∧ _))

/-- A call whose file cannot be opened, or one that writes all of a map that can be kept. -/
def Good (s : State) (call : SetCall) : Prop :=
  call.disk = .noOpen ∨ call.disk = .written ∧ Savable (put true call.name call.value s.map)

section Put

variable {name value : List UInt8} {replace : Bool} {map : ConfigMap}

/-- The names are in order. -/
def Sorted (map : ConfigMap) : Prop := (map.map Prod.fst).Pairwise (· < ·)

theorem mem_keys_put {key : List UInt8} (h : key ∈ (put replace name value map).map Prod.fst) :
    key = name ∨ key ∈ map.map Prod.fst := by
  induction map with
  | nil => exact .inl (List.mem_singleton.mp h)
  | cons pair rest ih =>
    rw [put] at h
    split at h
    · exact List.mem_cons.mp h
    · split at h
      · exact .inr h
      · rcases List.mem_cons.mp h with rfl | h
        · exact .inr List.mem_cons_self
        · exact (ih h).imp_right (List.mem_cons_of_mem _)

theorem Sorted.put (h : Sorted map) : Sorted (put replace name value map) := by
  induction map with
  | nil => exact List.pairwise_singleton _ _
  | cons pair rest ih =>
    obtain ⟨hfirst, hrest⟩ := List.pairwise_cons.mp h
    rw [CConfigFileReader.put]
    split
    · next hlt =>
      refine List.pairwise_cons.mpr ⟨?_, h⟩
      intro key hkey
      rcases List.mem_cons.mp hkey with rfl | hkey
      · exact hlt
      · exact List.lt_trans hlt (hfirst key hkey)
    · next hnot =>
      split
      · exact h
      · next hne =>
        refine List.pairwise_cons.mpr ⟨?_, ih hrest⟩
        intro key hkey
        rcases mem_keys_put hkey with rfl | hkey
        · exact Std.lt_of_le_of_ne (List.not_lt.mp hnot) (Ne.symm hne)
        · exact hfirst key hkey

theorem put_eq_append (h : ∀ key ∈ map.map Prod.fst, key < name) :
    put replace name value map = map ++ [(name, value)] := by
  induction map with
  | nil => rfl
  | cons pair rest ih =>
    obtain ⟨hfirst, hrest⟩ := List.forall_mem_cons.mp h
    have hnot : ¬name < pair.1 := fun hlt => List.lt_irrefl name (List.lt_trans hlt hfirst)
    have hne : name ≠ pair.1 := fun heq => List.lt_irrefl name (by rwa [← heq] at hfirst)
    rw [put, if_neg hnot, if_neg hne, ih hrest]
    rfl

theorem getConfigName_cons (pair : List UInt8 × List UInt8) (key : List UInt8) :
    getConfigName (pair :: map) key =
      if key = pair.1 then some pair.2 else getConfigName map key := by
  rw [getConfigName, List.lookup_cons]
  by_cases hkey : key = pair.1
  · rw [if_pos hkey, beq_iff_eq.mpr hkey]
  · rw [if_neg hkey, beq_eq_false_iff_ne.mpr hkey]
    rfl

theorem getConfigName_put :
    getConfigName (put true name value map) =
      Function.update (getConfigName map) name (some value) := by
  funext key
  induction map with
  | nil =>
    rw [put, getConfigName_cons, Function.update_apply]
  | cons pair rest ih =>
    rw [put, Function.update_apply]
    split
    · rw [getConfigName_cons]
    · split
      · next heq =>
        rw [if_pos rfl, heq, getConfigName_cons, getConfigName_cons]
        by_cases hkey : key = pair.1
        · rw [if_pos hkey, if_pos hkey]
        · rw [if_neg hkey, if_neg hkey, if_neg hkey]
      · next hne =>
        rw [getConfigName_cons, getConfigName_cons, ih, Function.update_apply]
        by_cases hkey : key = name
        · rw [if_pos hkey, if_pos hkey, if_neg (hkey ▸ hne)]
        · rw [if_neg hkey, if_neg hkey]

end Put

section Line

variable {text name value line rest : List UInt8} {map : ConfigMap}

theorem dropWhile_isBlank (h : text.head?.any (fun c => !isBlank c)) :
    text.dropWhile isBlank = text ∧ text ≠ [] := by
  cases text with
  | nil => cases h
  | cons c text =>
    refine ⟨List.dropWhile_cons_of_neg ?_, List.cons_ne_nil c text⟩
    simpa using h

theorem Clean.trimSpace_eq (h : Clean text) : trimSpace text = some text := by
  obtain ⟨hstart, hne⟩ := dropWhile_isBlank h.first
  have hlast : text.reverse.head?.any (fun c => !isBlank c) := by
    rw [List.head?_reverse]
    exact h.last
  have hend := (dropWhile_isBlank hlast).1
  rw [trimSpace, hstart, if_neg hne, hend, List.reverse_reverse]

theorem Clean.ne_nil (h : Clean text) : text ≠ [] := (dropWhile_isBlank h.first).2

theorem parseLine_pair (h : CleanPair (name, value)) :
    parseLine (name ++ 61 :: value) map = put false name value map := by
  obtain ⟨hname, hequals, hvalue⟩ := h
  have hall : ∀ c ∈ name, decide (c ≠ 61) = true :=
    fun c hc => decide_eq_true fun heq => hequals (heq ▸ hc)
  have hkey : (name ++ 61 :: value).takeWhile (· ≠ 61) = name := by
    rw [List.takeWhile_append_of_pos hall, List.takeWhile_cons_of_neg (by decide), List.append_nil]
  have hrest : ((name ++ 61 :: value).dropWhile (· ≠ 61)).drop 1 = value := by
    rw [List.dropWhile_append_of_pos hall, List.dropWhile_cons_of_neg (by decide)]
    rfl
  rw [parseLine, if_pos (List.mem_append_right name List.mem_cons_self), hkey, hrest,
    hname.trimSpace_eq, hvalue.trimSpace_eq]

theorem readLine_of_end {buf : List UInt8} (hbuf : buf = line ∨ buf = line ++ [10])
    (hlast : line.getLast? ≠ some 10) (hsign : 35 ∉ line) (hne : line ≠ []) :
    readLine buf map = parseLine line map := by
  have hend : (if buf.getLast? = some 10 then buf.dropLast else buf) = line := by
    rcases hbuf with rfl | rfl
    · rw [if_neg hlast]
    · rw [List.getLast?_concat, if_pos rfl, List.dropLast_concat]
  have hread : line.takeWhile (· ≠ 35) = line := by
    refine List.takeWhile_eq_self_iff.mpr fun c hc => ?_
    exact decide_eq_true fun heq => hsign (heq ▸ hc)
  simp only [readLine, hend, hread]
  rw [if_neg hne]

/-- What is printed for a pair, without the end of the line. -/
theorem pair_line (h : CleanPair (name, value)) :
    (∀ c ∈ name ++ 61 :: value, c ∉ ([0, 10, 35] : List UInt8)) ∧
      (name ++ 61 :: value).getLast? ≠ some 10 := by
  obtain ⟨hname, -, hvalue⟩ := h
  constructor
  · intro c hc
    rcases List.mem_append.mp hc with hc | hc
    · exact hname.inside c hc
    · rcases List.mem_cons.mp hc with rfl | hc
      · decide
      · exact hvalue.inside c hc
  · intro hlast
    have hmem := List.mem_of_getLast? hlast
    rcases List.mem_append.mp hmem with hc | hc
    · exact hname.inside 10 hc (by decide)
    · rcases List.mem_cons.mp hc with hc | hc
      · exact absurd hc (by decide)
      · exact hvalue.inside 10 hc (by decide)

theorem readLine_pair (h : CleanPair (name, value)) {buf : List UInt8}
    (hbuf : buf = name ++ 61 :: value ∨ buf = name ++ 61 :: value ++ [10]) :
    readLine buf map = put false name value map := by
  obtain ⟨hinside, hlast⟩ := pair_line h
  have hne : name ++ 61 :: value ≠ [] :=
    List.append_ne_nil_of_right_ne_nil name (List.cons_ne_nil _ _)
  rw [readLine_of_end hbuf hlast (fun hmem => hinside 35 hmem (by decide)) hne, parseLine_pair h]

theorem takeWhile_line (hline : 10 ∉ line) : line.takeWhile (· ≠ 10) = line :=
  List.takeWhile_eq_self_iff.mpr fun _ hc => decide_eq_true fun heq => hline (heq ▸ hc)

theorem fgets_line (hline : 10 ∉ line) (hlen : line.length < 255) :
    fgets (line ++ 10 :: rest) = (line ++ [10], rest) := by
  obtain ⟨k, hk⟩ := Nat.exists_eq_add_of_lt hlen
  have hmost : (line ++ 10 :: rest).take 255 = line ++ 10 :: rest.take k := by
    rw [hk, Nat.add_assoc, List.take_length_add_append, List.take_succ_cons]
  have hread : (line ++ 10 :: rest.take k).takeWhile (· ≠ 10) = line := by
    rw [List.takeWhile_append_of_pos, List.takeWhile_cons_of_neg (by decide), List.append_nil]
    exact fun c hc => decide_eq_true fun heq => hline (heq ▸ hc)
  have hshort : line.length < (line ++ 10 :: rest.take k).length := by
    rw [List.length_append, List.length_cons]
    omega
  simp only [fgets, hmost, hread]
  rw [if_pos hshort, List.take_length_add_append, List.drop_length_add_append]
  rfl

theorem fgets_end (hline : 10 ∉ line) (hlen : line.length ≤ 255) : fgets line = (line, []) := by
  simp only [fgets, List.take_of_length_le hlen, takeWhile_line hline]
  rw [if_neg (Nat.lt_irrefl _), List.take_length, List.drop_length]

end Line

theorem pairText_eq (name value : List UInt8) :
    pairText (name, value) = (name ++ 61 :: value ++ [10]).take 127 := by
  rw [pairText, CText.snprintf, List.append_assoc]
  rfl

theorem loadLines_succ {text read rest : List UInt8} {map : ConfigMap} {fuel : ℕ}
    (h : fgets text = (read, rest)) (htext : text ≠ []) (hread : read ≠ []) (hnul : 0 ∉ read) :
    loadLines (fuel + 1) text map = loadLines fuel rest (readLine read map) := by
  have hstr : CText.cStr read = read := CText.cStr_eq_self_iff.mpr hnul
  rw [loadLines, if_neg htext, h]
  simp only [hstr]
  rw [if_neg hread]

theorem loadLines_fileText {map : ConfigMap} : ∀ {acc : ConfigMap} {fuel : ℕ}, Savable map →
    Sorted (acc ++ map) → (fileText map).length ≤ fuel →
    loadLines fuel (fileText map) acc = some (acc ++ map) := by
  induction map with
  | nil =>
    intro acc fuel _ _ _
    rw [List.append_nil]
    cases fuel with
    | zero => rfl
    | succ fuel => exact if_pos rfl
  | cons pair rest ih =>
    intro acc fuel hsavable hsorted hfuel
    obtain ⟨name, value⟩ := pair
    obtain ⟨hclean, hfits, hrest⟩ := hsavable
    obtain ⟨hinside, -⟩ := pair_line hclean
    have hnotMem {c : UInt8} (hc : c ∈ ([0, 10, 35] : List UInt8)) : c ∉ name ++ 61 :: value :=
      fun hmem => hinside c hmem hc
    have hlen : (name ++ 61 :: value).length = name.length + value.length + 1 := by
      rw [List.length_append, List.length_cons]
      omega
    have hbehind : put false name value acc = acc ++ [(name, value)] := by
      refine put_eq_append fun key hkey => ?_
      rw [Sorted, List.map_append] at hsorted
      exact (List.pairwise_append.mp hsorted).2.2 key hkey name List.mem_cons_self
    have hne : name ++ 61 :: value ≠ [] :=
      List.append_ne_nil_of_right_ne_nil name (List.cons_ne_nil _ _)
    have hfile : fileText ((name, value) :: rest) = pairText (name, value) ++ fileText rest :=
      List.flatMap_cons
    rw [List.append_cons] at hsorted ⊢
    rw [hfile] at hfuel ⊢
    rcases hfits with hshort | ⟨rfl, hfull⟩
    · have hpair : pairText (name, value) = name ++ 61 :: value ++ [10] := by
        rw [pairText_eq, List.take_of_length_le]
        rw [List.length_append, List.length_singleton, hlen]
        exact Nat.le_of_lt_succ hshort
      rw [hpair, ← List.append_cons] at hfuel ⊢
      have hread : fgets (name ++ 61 :: value ++ 10 :: fileText rest) =
          (name ++ 61 :: value ++ [10], fileText rest) := by
        refine fgets_line (hnotMem (by decide)) ?_
        have hshort' : name.length + value.length + 2 < 128 := hshort
        rw [hlen]
        omega
      obtain ⟨fuel, rfl⟩ : ∃ k, fuel = k + 1 := by
        refine Nat.exists_eq_succ_of_ne_zero ?_
        rw [List.length_append, List.length_cons, hlen] at hfuel
        omega
      rw [List.length_append, List.length_cons, hlen] at hfuel
      have hnul : 0 ∉ name ++ 61 :: value ++ [10] := by
        rw [List.mem_append, not_or]
        exact ⟨hnotMem (by decide), by decide⟩
      rw [loadLines_succ hread (List.append_ne_nil_of_left_ne_nil hne _)
        (List.append_ne_nil_of_left_ne_nil hne _) hnul, readLine_pair hclean (.inr rfl), hbehind]
      exact ih hrest hsorted (by omega)
    · have hpair : pairText (name, value) = name ++ 61 :: value := by
        rw [pairText_eq]
        refine List.take_left' ?_
        rw [hlen]
        exact Nat.succ.inj hfull
      have hnil : fileText [] = [] := rfl
      rw [hpair, hnil, List.append_nil] at hfuel ⊢
      have hread : fgets (name ++ 61 :: value) = (name ++ 61 :: value, []) := by
        refine fgets_end (hnotMem (by decide)) ?_
        have hfull' : name.length + value.length + 2 = 128 := hfull
        rw [hlen]
        omega
      obtain ⟨fuel, rfl⟩ : ∃ k, fuel = k + 1 := by
        refine Nat.exists_eq_succ_of_ne_zero ?_
        rw [hlen] at hfuel
        omega
      rw [loadLines_succ hread hne hne (hnotMem (by decide)), readLine_pair hclean (.inl rfl),
        hbehind]
      exact ih hrest hsorted (Nat.zero_le fuel)

theorem loadFile_fileText {map : ConfigMap} (h : Savable map) (hsorted : Sorted map) :
    loadFile (fileText map) = some map :=
  loadLines_fileText h hsorted le_rfl

theorem Sorted.parseLine {map : ConfigMap} (h : Sorted map) (line : List UInt8) :
    Sorted (parseLine line map) := by
  rw [CConfigFileReader.parseLine]
  split
  · generalize trimSpace _ = key
    generalize trimSpace _ = value
    cases key with
    | none => exact h
    | some key =>
      cases value with
      | none => exact h
      | some value => exact h.put
  · exact h

theorem Sorted.readLine {map : ConfigMap} (h : Sorted map) (buf : List UInt8) :
    Sorted (readLine buf map) := by
  rw [CConfigFileReader.readLine]
  generalize (if buf.getLast? = some 10 then buf.dropLast else buf) = buf
  show Sorted (if buf.takeWhile (· ≠ 35) = [] then map else CConfigFileReader.parseLine _ map)
  split
  · exact h
  · exact h.parseLine _

theorem Sorted.loadLines {fuel : ℕ} : ∀ {text : List UInt8} {map map' : ConfigMap}, Sorted map →
    loadLines fuel text map = some map' → Sorted map' := by
  induction fuel with
  | zero =>
    intro text map map' h hload
    rw [← Option.some.inj hload]
    exact h
  | succ fuel ih =>
    intro text map map' h hload
    rw [CConfigFileReader.loadLines] at hload
    split at hload
    · rw [← Option.some.inj hload]
      exact h
    · dsimp only at hload
      split at hload
      · cases hload
      · exact ih (h.readLine _) hload

/-- The map is that of the latest values, and the file has what was kept. -/
structure ConfigInv (s : State) : Prop where
  sorted : Sorted s.map
  latest : getConfigName s.map = s.latest
  survives : Survives s

theorem ConfigInv.step {s s' : State} {call : SetCall} (h : ConfigInv s) (hgood : Good s call)
    (hstep : step s call = some s') : ConfigInv s' := by
  rw [← Option.some.inj hstep]
  have hlatest : getConfigName (put true call.name call.value s.map) =
      Function.update s.latest call.name (some call.value.1) := by
    rw [getConfigName_put, h.latest]
  rcases hgood with hdisk | ⟨hdisk, hsavable⟩
  · -- neither the file nor what was kept is touched
    refine ⟨h.sorted.put, hlatest, ?_⟩
    rw [State.setConfigValue, hdisk]
    exact h.survives
  · refine ⟨h.sorted.put, hlatest, put true call.name call.value s.map, ?_, ?_⟩
    · rw [State.setConfigValue, hdisk]
      exact loadFile_fileText hsavable h.sorted.put
    · rw [State.setConfigValue, hdisk]
      exact hlatest

/-- After a file has been loaded, in every run of calls that write a map that can be kept, or whose
file cannot be opened, the file has the latest values of the names that were kept, and no other
name. -/
theorem config_survives {file : List UInt8} {map : ConfigMap} {s : State}
    (hload : loadFile file = some map) (h : Run.Reaches step Good (loaded file map) s) :
    Survives s := by
  have hinv : ConfigInv s := by
    refine h.invariant ConfigInv ?_ fun _ _ _ hinv hgood hstep => hinv.step hgood hstep
    exact ⟨Sorted.loadLines (show Sorted [] from List.Pairwise.nil) hload, rfl, map, hload, rfl⟩
  exact hinv.survives

/-- A value is set in a file with a name, a comment and a blank line. -/
theorem config_survives_set :
    Survives ((loaded [97, 61, 49, 35, 99, 10, 10] [([97], [49])]).setConfigValue
      ⟨⟨[98], by decide⟩, ⟨[50, 32, 51], by decide⟩, .written⟩) :=
  config_survives (show loadFile [97, 61, 49, 35, 99, 10, 10] = some [([97], [49])] by decide)
    (.next .refl (.inr ⟨rfl, by decide⟩) rfl)

/-- A number sign in a value is not refused, and what is behind it is lost. -/
theorem not_config_survives :
    ¬∀ (file : List UInt8) (map : ConfigMap) (call : SetCall), loadFile file = some map →
      Survives ((loaded file map).setConfigValue call) := by
  intro h
  obtain ⟨map, hload, hkept⟩ :=
    h [] [] ⟨⟨[97], by decide⟩, ⟨[120, 35, 121], by decide⟩, .written⟩ rfl
  have hmap : map = [([97], [120])] := (Option.some.inj hload).symm.trans (by decide)
  rw [hmap] at hkept
  exact absurd (congrFun hkept [97]) (by decide)

end CConfigFileReader

end ImServer
