import ImServer.WsSvr.CustSessions

/-!
# The keys of agents

An agent of a service is known by a text that has his id, an underscore and the id of the service
(wsSvr/common.h). It goes through buffers, and the one in `CCustWebTask::loginHandler`
(wsSvr/custWebTask.cpp) is shorter than the one of `packCustBind`, which the other functions use.
`unpackCustBind` takes the text apart at its first underscore.
-/

namespace ImServer

/-- A text that `asString` returns. It ends at its first NUL. -/
@[ext] structure AsString where
  text : List UInt8
  noNul : 0 ∉ text

namespace CUST

/-- Without an underscore both ids are the whole text. -/
def unpackCustBind (custBind : List UInt8) : List UInt8 × List UInt8 :=
  if 95 ∈ custBind then
    (custBind.takeWhile (· ≠ 95), (custBind.dropWhile (· ≠ 95)).tail)
  else (custBind, custBind)

/-- `cust_bind` of `loginHandler`. -/
def loginBind (custId serviceId : List UInt8) : List UInt8 :=
  CText.snprintf 47 (bindText custId serviceId)

variable {custId serviceId : List UInt8}

theorem bindText_asString (custId serviceId : AsString) :
    bindText custId.text serviceId.text = custId.text ++ 95 :: serviceId.text := by
  rw [bindText, CText.cStr_eq_self_iff.mpr custId.noNul, CText.cStr_eq_self_iff.mpr serviceId.noNul]

/-- What was put together is taken apart again, if the first underscore is the one in between. -/
theorem unpackCustBind_append (h : 95 ∉ custId) :
    unpackCustBind (custId ++ 95 :: serviceId) = (custId, serviceId) := by
  have hall : ∀ c ∈ custId, decide (c ≠ 95) = true := fun c hc =>
    decide_eq_true fun heq => h (heq ▸ hc)
  rw [unpackCustBind, if_pos (List.mem_append_right _ List.mem_cons_self),
    List.takeWhile_append_of_pos hall, List.dropWhile_append_of_pos hall]
  simp

end CUST

namespace WebAgents

variable (s : WebAgents)

end WebAgents

/-- The text for an agent of a service tells who he is, and it is the same everywhere. -/
structure AgentKey (custId serviceId : AsString) : Prop where
  roundTrip : CUST.unpackCustBind (CUST.packCustBind custId.text serviceId.text) =
    (custId.text, serviceId.text)
  distinct : ∀ custId' serviceId' : AsString,
    CUST.packCustBind custId'.text serviceId'.text =
      CUST.packCustBind custId.text serviceId.text → custId' = custId ∧ serviceId' = serviceId
  connection : CUST.loginBind custId.text serviceId.text =
    CUST.packCustBind custId.text serviceId.text
  status : WebAgents.custInfoKey (CUST.loginBind custId.text serviceId.text) =
    WebAgents.custInfoKey (CUST.packCustBind custId.text serviceId.text)
  sessions : ∀ type : SessionType, type.key (CUST.loginBind custId.text serviceId.text) =
    type.key (CUST.packCustBind custId.text serviceId.text)

namespace AgentKey

variable {custId serviceId : AsString}

theorem packCustBind_eq (custId serviceId : AsString) :
    CUST.packCustBind custId.text serviceId.text =
      (custId.text ++ 95 :: serviceId.text).take 127 := by
  rw [CUST.packCustBind, CUST.bindText_asString]
  rfl

theorem loginBind_eq (custId serviceId : AsString) :
    CUST.loginBind custId.text serviceId.text =
      (custId.text ++ 95 :: serviceId.text).take 46 := by
  rw [CUST.loginBind, CUST.bindText_asString]
  rfl

/-- An underscore in an id could as well be the one in between. -/
theorem not_mem_of_distinct (h : AgentKey custId serviceId) :
    95 ∉ custId.text ∧ 95 ∉ serviceId.text := by
  constructor
  · intro hmem
    obtain ⟨front, back, hsplit⟩ := List.append_of_mem hmem
    have hnul : 0 ∉ front ∧ 0 ∉ back := by
      have hnone := custId.noNul
      rw [hsplit] at hnone
      simp only [List.mem_append, List.mem_cons, not_or] at hnone
      exact ⟨hnone.1, hnone.2.2⟩
    have hnul' : 0 ∉ back ++ 95 :: serviceId.text := by
      simp only [List.mem_append, List.mem_cons, not_or]
      exact ⟨hnul.2, by decide, serviceId.noNul⟩
    have hsame := (h.distinct ⟨front, hnul.1⟩ ⟨_, hnul'⟩ (by
      rw [packCustBind_eq, packCustBind_eq, hsplit, List.append_assoc, List.cons_append])).1
    have hlength := congrArg (fun id : AsString => id.text.length) hsame
    rw [hsplit] at hlength
    simp at hlength
  · intro hmem
    obtain ⟨front, back, hsplit⟩ := List.append_of_mem hmem
    have hnul : 0 ∉ front ∧ 0 ∉ back := by
      have hnone := serviceId.noNul
      rw [hsplit] at hnone
      simp only [List.mem_append, List.mem_cons, not_or] at hnone
      exact ⟨hnone.1, hnone.2.2⟩
    have hnul' : 0 ∉ custId.text ++ 95 :: front := by
      simp only [List.mem_append, List.mem_cons, not_or]
      exact ⟨custId.noNul, by decide, hnul.1⟩
    have hsame := (h.distinct ⟨_, hnul'⟩ ⟨back, hnul.2⟩ (by
      rw [packCustBind_eq, packCustBind_eq, hsplit, List.append_assoc, List.cons_append])).1
    have hlength := congrArg (fun id : AsString => id.text.length) hsame
    simp at hlength

theorem length_le_of_connection (h : AgentKey custId serviceId) :
    (custId.text ++ 95 :: serviceId.text).length ≤ 46 := by
  have hlength := congrArg List.length h.connection
  rw [loginBind_eq, packCustBind_eq, List.length_take, List.length_take] at hlength
  omega

/-- Only one pair of ids has a text with one underscore that fits. -/
theorem eq_of_packCustBind_eq {custId' serviceId' : AsString} (hcust : 95 ∉ custId.text)
    (hservice : 95 ∉ serviceId.text) (hlength : (custId.text ++ 95 :: serviceId.text).length ≤ 46)
    (h : CUST.packCustBind custId'.text serviceId'.text =
      CUST.packCustBind custId.text serviceId.text) :
    custId' = custId ∧ serviceId' = serviceId := by
  rw [packCustBind_eq, packCustBind_eq, List.take_of_length_le (i := 127) (hlength.trans (by decide))]
    at h
  have hlength' : (custId'.text ++ 95 :: serviceId'.text).length ≤ 127 := by
    have htake := congrArg List.length h
    rw [List.length_take] at htake
    omega
  rw [List.take_of_length_le hlength'] at h
  have hcount := congrArg (List.count 95) h
  rw [List.count_append, List.count_cons_self, List.count_append, List.count_cons_self,
    List.count_eq_zero_of_not_mem hcust, List.count_eq_zero_of_not_mem hservice] at hcount
  have hcust' : 95 ∉ custId'.text := List.count_eq_zero.mp (by omega)
  have hpair := congrArg CUST.unpackCustBind h
  rw [CUST.unpackCustBind_append hcust', CUST.unpackCustBind_append hcust] at hpair
  exact ⟨AsString.ext (congrArg Prod.fst hpair), AsString.ext (congrArg Prod.snd hpair)⟩

/-- The ids have no underscores and fit the shorter buffer. -/
theorem agent_key_iff (custId serviceId : AsString) :
    AgentKey custId serviceId ↔ 95 ∉ custId.text ∧ 95 ∉ serviceId.text ∧
      custId.text.length + serviceId.text.length < 46 := by
  have hcount : (custId.text ++ 95 :: serviceId.text).length =
      custId.text.length + serviceId.text.length + 1 := by
    rw [List.length_append, List.length_cons, Nat.add_assoc]
  constructor
  · intro h
    obtain ⟨hcust, hservice⟩ := h.not_mem_of_distinct
    have hfits := h.length_le_of_connection
    rw [hcount] at hfits
    exact ⟨hcust, hservice, hfits⟩
  · rintro ⟨hcust, hservice, hlength⟩
    have hfits : (custId.text ++ 95 :: serviceId.text).length ≤ 46 := hcount ▸ hlength
    have hconnection : CUST.loginBind custId.text serviceId.text =
        CUST.packCustBind custId.text serviceId.text := by
      rw [loginBind_eq, packCustBind_eq, List.take_of_length_le hfits,
        List.take_of_length_le (hfits.trans (by decide))]
    refine ⟨?_, fun _ _ => eq_of_packCustBind_eq hcust hservice hfits, hconnection,
      congrArg _ hconnection, fun type => congrArg type.key hconnection⟩
    rw [packCustBind_eq, List.take_of_length_le (hfits.trans (by decide)),
      CUST.unpackCustBind_append hcust]

/-- The id of an agent with an underscore is taken apart in the wrong place. -/
theorem not_agent_key : ¬ ∀ custId serviceId : AsString, AgentKey custId serviceId := by
  intro h
  have hround := (h ⟨[97, 95, 98], by decide⟩ ⟨[99], by decide⟩).roundTrip
  exact absurd hround (by decide)

end AgentKey

end ImServer
