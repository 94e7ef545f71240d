import Mathlib.Data.List.Forall2
import ImServer.Base.SimpleBuffer
import ImServer.Lib.Run

/-!
# Runs of a growing buffer

The calls of a `CSimpleBuffer` one after another. The bytes behind the content are filled in by the
socket, which puts no more there than there is room for, and `IncWriteOffset` counts them.

The sizes are added in 32 bits before they are compared. As long as a size that `Extend` asks for is
less than `2 ^ 32`, the content is what was written and not yet read.
-/

namespace ImServer

namespace CSimpleBuffer

def incWriteOffset (b : CSimpleBuffer) (len : Nat) : CSimpleBuffer :=
  { b with writeOffset := u32 (b.writeOffset + len) }

namespace Runs

/-- A call, with the bytes that the socket has put behind the content before `IncWriteOffset`. -/
inductive Call where
  | write (src : List UInt8)
  | writeNull (len : UInt32)
  | read (len : UInt32)
  | extend (len : UInt32)
  | incWriteOffset (received : List UInt8)
  deriving DecidableEq, Repr

/-- The buffer, what was written, and what was read. A byte that `Write` was given no value for can
be anything. After a copy outside the block there is no next state. -/
structure State where
  buf : CSimpleBuffer := {}
  written : List (Option UInt8) := []
  returned : List UInt8 := []
  faulted : Bool := false
  deriving DecidableEq, Repr

def State.fault (s : State) : State := { s with faulted := true }

def step (s : State) (call : Call) : Option State :=
  if s.faulted then none
  else
    match call with
    | .write src =>
      match s.buf.write src with
      | .error _ => some s.fault
      | .ok buf => some { s with buf, written := s.written ++ (src.take (u32 src.length)).map some }
    | .writeNull len =>
      some { s with buf := s.buf.reserve len.toNat
                    written := s.written ++ List.replicate len.toNat none }
    | .read len =>
      match s.buf.read len.toNat with
      | .error _ => some s.fault
      | .ok (data, buf) => some { s with buf, returned := s.returned ++ data }
    | .extend len => some { s with buf := s.buf.extend len.toNat }
    | .incWriteOffset received =>
      if received.length ≤ s.buf.allocSize - s.buf.writeOffset then
        match s.buf.poke s.buf.writeOffset received with
        | .error _ => some s.fault
        | .ok buf =>
          some { s with buf := buf.incWriteOffset received.length
                        written := s.written ++ received.map some }
      else none

/-- A byte that was written is the byte that is there. Nothing is said of the room that was reserved
and never written. -/
def Agrees (written : List (Option UInt8)) (bytes : List UInt8) : Prop :=
  List.Forall₂ (fun value byte => ∀ b, value = some b → byte = b) written bytes

/-- Nothing was copied outside the block, the offset lies inside it, and the content is what was
written and not yet read. -/
structure Kept (s : State) : Prop where
  inside : s.faulted = false
  offset : s.buf.writeOffset ≤ s.buf.allocSize
  fifo : Agrees s.written (s.returned ++ s.buf.content)

/-- A size that is asked for is less than `2 ^ 32`. -/
def Good (s : State) : Call → Prop
  | .write src => src.length < 2 ^ 32 ∧ s.buf.HasRoom src.length
  | .writeNull len => s.buf.HasRoom len.toNat
  | .extend len => grown (s.buf.writeOffset + len.toNat) < 2 ^ 32
  | .read _ | .incWriteOffset _ => True

instance decidableGood (s : State) (call : Call) : Decidable (Good s call) :=
  match call with
  | .write _ => inferInstanceAs (Decidable (_ ∧ _))
  | .writeNull _ => inferInstanceAs (Decidable (_ ∨ _))
  | .extend _ => inferInstanceAs (Decidable (_ < _))
  | .read _ | .incWriteOffset _ => inferInstanceAs (Decidable True)

/-- The buffer describes its block, nothing was touched outside of it, and what was returned and
what is left is what was written. -/
structure Inv (s : State) : Prop where
  valid : s.buf.Valid
  inside : s.faulted = false
  fifo : Agrees s.written (s.returned ++ s.buf.content)

theorem agrees_map_some (bytes : List UInt8) : Agrees (bytes.map some) bytes := by
  induction bytes with
  | nil => exact .nil
  | cons b bytes ih => exact .cons (fun _ heq => Option.some.inj heq) ih

theorem agrees_replicate (bytes : List UInt8) :
    Agrees (List.replicate bytes.length none) bytes := by
  induction bytes with
  | nil => exact .nil
  | cons b bytes ih => exact .cons (fun _ heq => by cases heq) ih

theorem Agrees.append {written more : List (Option UInt8)} {bytes moreBytes : List UInt8}
    (h : Agrees written bytes) (hmore : Agrees more moreBytes) :
    Agrees (written ++ more) (bytes ++ moreBytes) :=
  List.rel_append h hmore

variable {s s' : State}

theorem Inv.adds (h : Inv s) {b : CSimpleBuffer} {more : List (Option UInt8)} {bytes : List UInt8}
    (hvalid : b.Valid) (hcontent : b.content = s.buf.content ++ bytes) (hmore : Agrees more bytes) :
    Inv { s with buf := b, written := s.written ++ more } where
  valid := hvalid
  inside := h.inside
  fifo := by
    show Agrees (s.written ++ more) (s.returned ++ b.content)
    rw [hcontent, ← List.append_assoc]
    exact h.fifo.append hmore

/-- `Write(NULL, len)` leaves the content and puts the bytes of the block behind it. -/
theorem Valid.content_reserve {b : CSimpleBuffer} (h : b.Valid) {len : Nat}
    (hroom : b.HasRoom len) :
    ∃ bytes, bytes.length = len ∧ (b.reserve len).content = b.content ++ bytes := by
  obtain ⟨hv, hc, hle⟩ := h.ensure hroom
  obtain ⟨hvalid, hoffset⟩ := h.reserve hroom
  have hbuffer : (b.reserve len).buffer = (b.ensure len).buffer := rfl
  refine ⟨((b.ensure len).buffer.drop b.writeOffset).take len, ?_, ?_⟩
  · have hblock := hv.block
    rw [List.length_take, List.length_drop]
    omega
  · rw [content, hoffset, hbuffer, List.take_add, ← hc, content, ensure_writeOffset]

theorem Valid.incWriteOffset {b b' : CSimpleBuffer} (h : b.Valid) {received : List UInt8}
    (hfree : received.length ≤ b.allocSize - b.writeOffset)
    (hpoke : b.poke b.writeOffset received = .ok b') :
    (b'.incWriteOffset received.length).Valid ∧
      (b'.incWriteOffset received.length).content = b.content ++ received := by
  have hblock := h.block
  have hoffset := h.offset
  have hsize := h.size
  cases hstore : Block.store? b.buffer b.writeOffset received with
  | none =>
    rw [poke, hstore] at hpoke
    cases hpoke
  | some block =>
    rw [poke, hstore] at hpoke
    cases hpoke
    have hnew : u32 (b.writeOffset + received.length) = b.writeOffset + received.length :=
      u32_of_lt (by omega)
    refine ⟨⟨(Block.length_of_store? hstore).trans hblock, ?_, hsize⟩, ?_⟩
    · show u32 (b.writeOffset + received.length) ≤ b.allocSize
      rw [hnew]
      omega
    · show block.take (u32 (b.writeOffset + received.length)) = _
      rw [hnew, Block.take_of_store? hstore, content]

theorem Valid.exists_poke {b : CSimpleBuffer} (h : b.Valid) {received : List UInt8}
    (hfree : received.length ≤ b.allocSize - b.writeOffset) :
    ∃ b', b.poke b.writeOffset received = .ok b' := by
  have hblock := h.block
  have hoffset := h.offset
  have hle : b.writeOffset + received.length ≤ b.buffer.length := by omega
  exact ⟨_, by rw [poke, Block.store?_of_le hle]; rfl⟩

theorem Inv.next (h : Inv s) {call : Call} (hgood : Good s call)
    (hstep : step s call = some s') : Inv s' := by
  unfold step at hstep
  rw [if_neg (by rw [h.inside]; decide)] at hstep
  cases call with
  | write src =>
    obtain ⟨b, hwrite, hvalid, hcontent, -, -⟩ := h.valid.write hgood.1 hgood.2
    simp only [hwrite, u32_of_lt hgood.1, List.take_length] at hstep
    cases hstep
    exact h.adds hvalid hcontent (agrees_map_some src)
  | writeNull len =>
    obtain ⟨bytes, hlength, hcontent⟩ := Valid.content_reserve h.valid hgood
    cases hstep
    refine h.adds (h.valid.reserve hgood).1 hcontent ?_
    rw [← hlength]
    exact agrees_replicate bytes
  | read len =>
    obtain ⟨b, hread, hvalid, hcontent, -, -⟩ := h.valid.read len.toNat
    simp only [hread] at hstep
    cases hstep
    refine ⟨hvalid, h.inside, ?_⟩
    show Agrees s.written (s.returned ++ s.buf.content.take len.toNat ++ b.content)
    rw [hcontent, List.append_assoc, List.take_append_drop]
    exact h.fifo
  | extend len =>
    obtain ⟨hvalid, hcontent, -⟩ := h.valid.extend hgood
    cases hstep
    refine ⟨hvalid, h.inside, ?_⟩
    show Agrees s.written (s.returned ++ (s.buf.extend len.toNat).content)
    rw [hcontent]
    exact h.fifo
  | incWriteOffset received =>
    obtain ⟨hfree, hstep⟩ := Option.ite_none_right_eq_some.mp hstep
    obtain ⟨b, hpoke⟩ := Valid.exists_poke h.valid hfree
    simp only [hpoke] at hstep
    cases hstep
    obtain ⟨hvalid, hcontent⟩ := Valid.incWriteOffset h.valid hfree hpoke
    exact h.adds hvalid hcontent (agrees_map_some received)

theorem inv_start : Inv {} := ⟨valid_empty, rfl, .nil⟩

/-- In a run without a wrapped size the buffer is a queue of bytes. -/
theorem growing_buffer_kept (h : Run.Reaches step Good {} s) : Kept s := by
  have hinv : Inv s := h.invariant Inv inv_start fun _ _ _ hs hgood hstep => hs.next hgood hstep
  exact ⟨hinv.inside, hinv.valid.offset, hinv.fifo⟩

/-- A write, a packet from the socket, and a read of both. -/
def traffic : List Call :=
  [.write [1, 2], .extend 8, .incWriteOffset [3], .read 2, .writeNull 1, .read 7]

theorem growing_buffer_kept_traffic :
    (∃ s, Run.runGood step Good {} traffic = some s) ∧
      ∀ s, Run.runGood step Good {} traffic = some s → Kept s :=
  ⟨⟨_, rfl⟩, fun _ hrun => growing_buffer_kept (Run.reaches_of_runGood hrun)⟩

/-- A wrapped size makes the block smaller than its content. -/
theorem not_growing_buffer_kept :
    ¬ ∀ s, Run.Reaches step (fun _ _ => True) {} s → Kept s := by
  intro h
  have hreach : Run.Reaches step (fun _ _ => True) {}
      { buf := { buffer := [], allocSize := 0, writeOffset := 1 }, written := [some 7] } := by
    refine .next (e := .extend 0xffffffff) (.next (e := .write [7]) .refl trivial rfl) trivial ?_
    decide
  exact absurd (h _ hreach).offset (by decide)

end Runs

end CSimpleBuffer

end ImServer
