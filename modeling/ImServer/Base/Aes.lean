import ImServer.Base.Base64
import ImServer.Base.ByteStream

/-!
# The envelope of an encrypted text

`CAes::Encrypt` and `CAes::Decrypt` (base/encdec.cpp). The data is filled up with zeros to whole
blocks, the last four bytes of the last block hold its length, and the encrypted blocks travel in
base64. The cipher of one block is not part of the repository: it is any permutation of the blocks.

All lengths are computed in 32 bits. `Decrypt` compares the length it finds with the length of all
blocks, and not with that of what stands before the four bytes.
-/

namespace ImServer

namespace CAes

open Base64Codec CByteStream

abbrev Block := Fin 16 → UInt8

/-- `m_cEncKey` and `m_cDecKey` of one key, as the functions that encrypt and decrypt a block. -/
structure Key where
  encrypt : Block → Block
  decrypt : Block → Block
  decrypt_encrypt : ∀ block, decrypt (encrypt block) = block
  encrypt_decrypt : ∀ block, encrypt (decrypt block) = block

def blockOf (data : List UInt8) : Block := fun i => data.getD i 0

/-- The loop over the blocks. -/
def eachBlock (f : Block → Block) : ℕ → List UInt8 → List UInt8
  | 0, _ => []
  | n + 1, data => List.ofFn (f (blockOf data)) ++ eachBlock f n (data.drop 16)

/-- `CByteStream::ReadUint32` of the bytes at a place. -/
def readUint32At (buf : List UInt8) : ℕ :=
  (uint32Of (buf.getD 0 0) (buf.getD 1 0) (buf.getD 2 0) (buf.getD 3 0)).toNat

/-- What a call returns and stores. Of the memory at `ppOutData` it is the part up to the NUL. -/
structure Outcome where
  ret : ℤ
  ppOutData : Option (List UInt8) := none
  nOutLen : Option ℕ := none
  deriving DecidableEq, Repr

def nBlocks (nInLen : ℕ) : ℕ :=
  let nRemain := nInLen % 16
  let nBlocks := u32 (nInLen + 15) / 16
  if 12 < nRemain ∨ nRemain = 0 then u32 (nBlocks + 1) else nBlocks

def nEncryptLen (nInLen : ℕ) : ℕ := u32 (nBlocks nInLen * 16)

/-- `pData` with the length at its end. -/
def padded (pInData : List UInt8) : List UInt8 :=
  let zeros := List.replicate (nEncryptLen pInData.length - pInData.length) 0
  (pInData ++ zeros).take (nEncryptLen pInData.length - 4) ++
    writeUint32 (UInt32.ofNat pInData.length)

/-- `CAes::Encrypt`. The data and its length must fit the memory that was asked for. -/
def encrypt (key : Key) (pInData : List UInt8) : Except Broken Outcome :=
  let nInLen := pInData.length
  if nInLen = 0 then .ok { ret := -1 }
  else if nEncryptLen nInLen < nInLen ∨ nEncryptLen nInLen < 4 then .error .outside
  else do
    let strDec ← base64Encode (eachBlock key.encrypt (nBlocks nInLen) (padded pInData))
    let nOutLen := u32 strDec.length
    .ok { ret := 0, ppOutData := some (strDec.take nOutLen ++ [0]), nOutLen := some nOutLen }

/-- The number in the last four bytes. -/
def lengthField (pTmp : List UInt8) : ℕ := readUint32At (pTmp.drop (pTmp.length - 4))

/-- The end of `CAes::Decrypt`, from the decrypted blocks on. -/
def unpack (pTmp : List UInt8) : Outcome :=
  let nLen := pTmp.length
  let nOutLen := lengthField pTmp
  if nLen < nOutLen then { ret := -4, nOutLen := some nOutLen }
  else { ret := 0, ppOutData := some (pTmp.take nOutLen ++ [0]), nOutLen := some nOutLen }

def decrypt (key : Key) (pInData : List UInt8) : Outcome :=
  if pInData.length = 0 then { ret := -1 }
  else
    let strResult := base64Decode pInData
    let nLen := u32 strResult.length
    if nLen = 0 then { ret := -2 }
    else if nLen % 16 ≠ 0 then { ret := -3 }
    else unpack (eachBlock key.decrypt (nLen / 16) strResult)

section Blocks

variable {f g : Block → Block} {data rest : List UInt8} {n : ℕ}

theorem length_eachBlock : (eachBlock f n data).length = n * 16 := by
  induction n generalizing data with
  | zero => exact (Nat.zero_mul 16).symm
  | succ n ih =>
    rw [eachBlock, List.length_append, List.length_ofFn, ih]
    omega

theorem blockOf_append (block : Block) : blockOf (List.ofFn block ++ rest) = block := by
  funext i
  have hi : (i : ℕ) < (List.ofFn block).length := by
    rw [List.length_ofFn]
    exact i.2
  rw [blockOf, List.getD_append _ _ _ _ hi, List.getD_eq_getElem _ _ hi, List.getElem_ofFn]

theorem ofFn_blockOf (h : 16 ≤ data.length) : List.ofFn (blockOf data) = data.take 16 := by
  refine List.ext_getElem (by rw [List.length_ofFn, List.length_take_of_le h]) ?_
  intro i hi hi'
  rw [List.length_ofFn] at hi
  rw [List.getElem_ofFn, List.getElem_take, blockOf, List.getD_eq_getElem _ _ (hi.trans_le h)]

theorem drop_append_block (block : Block) : (List.ofFn block ++ rest).drop 16 = rest :=
  List.drop_left' List.length_ofFn

theorem eachBlock_eachBlock (hgf : ∀ block, g (f block) = block) (hlen : data.length = n * 16) :
    eachBlock g n (eachBlock f n data) = data := by
  induction n generalizing data with
  | zero => exact (List.length_eq_zero_iff.mp (hlen.trans (Nat.zero_mul 16))).symm
  | succ n ih =>
    have hfirst : 16 ≤ data.length := by omega
    have hrest : (data.drop 16).length = n * 16 := by
      rw [List.length_drop]
      omega
    rw [eachBlock, eachBlock, blockOf_append, hgf, drop_append_block, ih hrest,
      ofFn_blockOf hfirst, List.take_append_drop]

end Blocks

theorem length_decodeLoop_le (text : List UInt8) (s : Decoder) :
    8 * (decodeLoop text s).length ≤ 8 * s.retval.length + s.bitsCollected + 6 * text.length := by
  induction text generalizing s with
  | nil =>
    rw [decodeLoop]
    omega
  | cons c rest ih =>
    rw [decodeLoop, List.length_cons]
    split
    · have hrest := ih s
      omega
    · split
      · exact Nat.zero_le _
      · refine (ih _).trans ?_
        rw [Decoder.feed]
        split
        · simp only [List.length_append, List.length_singleton]
          omega
        · dsimp only
          omega

theorem length_base64Decode_le (text : List UInt8) :
    4 * (base64Decode text).length ≤ 3 * text.length := by
  have hlen : 8 * (base64Decode text).length ≤ 8 * 0 + 0 + 6 * text.length :=
    length_decodeLoop_le text {}
  omega

/-- The lengths are computed without wrapping: the data with its length, rounded up to whole blocks,
has a 32-bit size. -/
def NoWrap (nInLen : ℕ) : Prop := nInLen + 15 < 2 ^ 32 ∧ nBlocks nInLen * 16 < 2 ^ 32

section Lengths

variable {n : ℕ}

theorem nBlocks_eq (h : n + 15 < 2 ^ 32) : nBlocks n = (n + 19) / 16 := by
  have hsum : u32 (n + 15) = n + 15 := Nat.mod_eq_of_lt h
  have hmore : u32 ((n + 15) / 16 + 1) = (n + 15) / 16 + 1 := Nat.mod_eq_of_lt (by omega)
  rw [nBlocks, hsum]
  split
  · rw [hmore]
    omega
  · omega

theorem noWrap_iff : NoWrap n ↔ n + 19 < 2 ^ 32 := by
  constructor
  · rintro ⟨hsum, hblocks⟩
    rw [nBlocks_eq hsum] at hblocks
    omega
  · intro h
    have hsum : n + 15 < 2 ^ 32 := by omega
    refine ⟨hsum, ?_⟩
    rw [nBlocks_eq hsum]
    omega

theorem nEncryptLen_eq (h : NoWrap n) : nEncryptLen n = nBlocks n * 16 := Nat.mod_eq_of_lt h.2

theorem add_four_le (h : NoWrap n) : n + 4 ≤ nEncryptLen n := by
  rw [nEncryptLen_eq h, nBlocks_eq h.1]
  omega

end Lengths

/-- A text that decodes to one block or more. -/
def WholeBlocks (text : List UInt8) : Prop :=
  0 < (base64Decode text).length ∧ (base64Decode text).length % 16 = 0

/-- The blocks of a text, decrypted. -/
def blocks (key : Key) (text : List UInt8) : List UInt8 :=
  eachBlock key.decrypt ((base64Decode text).length / 16) (base64Decode text)

/-- The text decodes to the encrypted blocks of the data. -/
def Encrypts (key : Key) (data text : List UInt8) : Prop :=
  0 < data.length ∧ data.length % 16 = 0 ∧
    base64Decode text = eachBlock key.encrypt (data.length / 16) data

section Decrypt

variable {key : Key} {data text pTmp : List UInt8}

theorem length_blocks (h : WholeBlocks text) :
    (blocks key text).length = (base64Decode text).length := by
  have hmod := h.2
  rw [blocks, length_eachBlock]
  omega

/-- Each text of whole blocks is the encryption of what it is decrypted to. -/
theorem encrypts_iff :
    Encrypts key data text ↔ WholeBlocks text ∧ data = blocks key text := by
  constructor
  · rintro ⟨hpos, hmod, htext⟩
    have hlen : data.length = data.length / 16 * 16 := by omega
    have hblocks : (base64Decode text).length = data.length := by
      rw [htext, length_eachBlock, ← hlen]
    refine ⟨by rwa [WholeBlocks, hblocks, and_iff_right hpos], ?_⟩
    rw [blocks, hblocks, htext, eachBlock_eachBlock key.decrypt_encrypt hlen]
  · rintro ⟨hwhole, rfl⟩
    have hmod := hwhole.2
    rw [Encrypts, length_blocks hwhole]
    refine ⟨hwhole.1, hmod, ?_⟩
    rw [blocks, eachBlock_eachBlock key.encrypt_decrypt (by omega)]

theorem decrypt_of_whole (hfits : text.length < 2 ^ 32) (h : WholeBlocks text) :
    decrypt key text = unpack (blocks key text) := by
  obtain ⟨hpos, hmod⟩ := h
  have hle := length_base64Decode_le text
  have hlen : u32 (base64Decode text).length = (base64Decode text).length :=
    Nat.mod_eq_of_lt (by omega)
  rw [decrypt, if_neg (by omega)]
  simp only [hlen]
  rw [if_neg (by omega), if_neg (by omega)]
  rfl

theorem decrypt_eq_of_ret (hfits : text.length < 2 ^ 32) (h : (decrypt key text).ret = 0) :
    WholeBlocks text ∧ decrypt key text = unpack (blocks key text) := by
  have hle := length_base64Decode_le text
  have hlen : u32 (base64Decode text).length = (base64Decode text).length :=
    Nat.mod_eq_of_lt (by omega)
  have hwhole : WholeBlocks text := by
    rw [decrypt] at h
    simp only [hlen] at h
    split at h
    · cases h
    · split at h
      · cases h
      · split at h
        · cases h
        · next hpos hmod => exact ⟨Nat.pos_of_ne_zero hpos, not_not.mp hmod⟩
  exact ⟨hwhole, decrypt_of_whole hfits hwhole⟩

theorem ret_unpack_iff : (unpack pTmp).ret = 0 ↔ lengthField pTmp ≤ pTmp.length := by
  rw [unpack]
  split
  · next hlt => exact iff_of_false (by decide : ¬(-4 : ℤ) = 0) (Nat.not_le.mpr hlt)
  · next hle => exact iff_of_true rfl (Nat.not_lt.mp hle)

theorem nOutLen_unpack (pTmp : List UInt8) : (unpack pTmp).nOutLen = some (lengthField pTmp) := by
  rw [unpack]
  split
  · rfl
  · rfl

/-- The length that is reported is at most that of all blocks. -/
theorem le_of_decrypt (hfits : text.length < 2 ^ 32) {memory : List UInt8} {n : ℕ}
    (h : decrypt key text = ⟨0, some memory, some n⟩) : n ≤ (base64Decode text).length := by
  obtain ⟨hwhole, hdecrypt⟩ := decrypt_eq_of_ret hfits (congrArg Outcome.ret h)
  rw [hdecrypt] at h
  have hfield : lengthField (blocks key text) = n :=
    Option.some.inj ((nOutLen_unpack _).symm.trans (congrArg Outcome.nOutLen h))
  have hle := ret_unpack_iff.mp (congrArg Outcome.ret h)
  rwa [hfield, length_blocks hwhole] at hle

end Decrypt

section RoundTrip

variable {key : Key} {pInData : List UInt8}

theorem padded_eq (h : NoWrap pInData.length) :
    padded pInData =
      pInData ++ List.replicate (nEncryptLen pInData.length - 4 - pInData.length) 0 ++
        writeUint32 (UInt32.ofNat pInData.length) := by
  have hroom := add_four_le h
  rw [padded, List.take_append, List.take_of_length_le (by omega), List.take_replicate,
    Nat.min_eq_left (by omega)]

theorem length_padded (h : NoWrap pInData.length) :
    (padded pInData).length = nBlocks pInData.length * 16 := by
  have hroom := add_four_le h
  have hfour : (writeUint32 (UInt32.ofNat pInData.length)).length = 4 := rfl
  rw [padded_eq h, ← nEncryptLen_eq h, List.length_append, List.length_append,
    List.length_replicate, hfour]
  omega

theorem readUint32At_writeUint32 {n : ℕ} (hn : n < 2 ^ 32) :
    readUint32At (writeUint32 (UInt32.ofNat n)) = n := by
  have hread : readUint32At (writeUint32 (UInt32.ofNat n)) = (UInt32.ofNat n).toNat :=
    congrArg UInt32.toNat (uint32Of_writeUint32 (UInt32.ofNat n))
  rw [hread, UInt32.toNat_ofNat_of_lt' hn]

theorem lengthField_append {front : List UInt8} {n : ℕ} (hn : n < 2 ^ 32) :
    lengthField (front ++ writeUint32 (UInt32.ofNat n)) = n := by
  have hlen : (front ++ writeUint32 (UInt32.ofNat n)).length = front.length + 4 :=
    List.length_append
  have hdrop : (front ++ writeUint32 (UInt32.ofNat n)).drop (front.length + 4 - 4) =
      writeUint32 (UInt32.ofNat n) := List.drop_left
  rw [lengthField, hlen, hdrop, readUint32At_writeUint32 hn]

theorem decrypt_encode {data : List UInt8} {m : ℕ} (hm : 0 < m) (hlen : data.length = m * 16)
    (hfits : (Base64.encode (eachBlock key.encrypt m data)).length < 2 ^ 32) :
    decrypt key (Base64.encode (eachBlock key.encrypt m data)) = unpack data := by
  have hdecode : base64Decode (Base64.encode (eachBlock key.encrypt m data)) =
      eachBlock key.encrypt m data := decodeLoop_encode _ [] 0
  have hencrypts : Encrypts key data (Base64.encode (eachBlock key.encrypt m data)) := by
    rw [Encrypts, hdecode, hlen, Nat.mul_div_cancel _ (by decide)]
    exact ⟨by omega, Nat.mul_mod_left m 16, rfl⟩
  obtain ⟨hwhole, hdata⟩ := encrypts_iff.mp hencrypts
  rw [decrypt_of_whole hfits hwhole, ← hdata]

/-- What `Encrypt` makes of the data before it is cut to 32 bits. -/
def encoded (key : Key) (pInData : List UInt8) : List UInt8 :=
  Base64.encode (eachBlock key.encrypt (nBlocks pInData.length) (padded pInData))

theorem length_encoded (h : NoWrap pInData.length) :
    (encoded key pInData).length = ((pInData.length + 19) / 16 * 16 + 2) / 3 * 4 := by
  rw [encoded, Base64.length_encode, length_eachBlock, nBlocks_eq h.1]

theorem encrypt_eq (hne : pInData ≠ []) (h : NoWrap pInData.length) :
    encrypt key pInData = .ok
      { ret := 0
        ppOutData := some ((encoded key pInData).take (u32 (encoded key pInData).length) ++ [0])
        nOutLen := some (u32 (encoded key pInData).length) } := by
  have hroom := add_four_le h
  have hpos : 0 < pInData.length := List.length_pos_iff.mpr hne
  have hsize : (eachBlock key.encrypt (nBlocks pInData.length) (padded pInData)).length =
      nEncryptLen pInData.length := length_eachBlock.trans (nEncryptLen_eq h).symm
  have hblocks : eachBlock key.encrypt (nBlocks pInData.length) (padded pInData) ≠ [] := by
    apply List.length_pos_iff.mp
    omega
  have hlimit : (eachBlock key.encrypt (nBlocks pInData.length) (padded pInData)).length ≤
      sizeMax / 4 * 3 := by
    have hlt : nEncryptLen pInData.length < 2 ^ 32 := Nat.mod_lt _ (Nat.two_pow_pos 32)
    have hsizeMax : 2 ^ 32 ≤ sizeMax / 4 * 3 := by decide
    omega
  rw [encrypt]
  simp only [base64Encode_eq hblocks hlimit, bind, Except.bind]
  rw [if_neg (by omega), if_neg (by omega)]
  rfl

/-- The data is encrypted without an error, and what comes out is decrypted without one to the same
data. The memory behind it is left open. -/
structure RoundTrip (key : Key) (pInData : List UInt8) : Prop where
  no_wrap : NoWrap pInData.length
  same : ∃ out nOutLen memory, encrypt key pInData = .ok ⟨0, some out, some nOutLen⟩ ∧
    decrypt key (out.take nOutLen) = ⟨0, some memory, some pInData.length⟩ ∧
    memory.take pInData.length = pInData

theorem roundTrip (key : Key) (hne : pInData ≠ []) (h : pInData.length + 19 < 3 * 2 ^ 30) :
    RoundTrip key pInData := by
  have hwrap : NoWrap pInData.length := noWrap_iff.mpr (by omega)
  have hroom := add_four_le hwrap
  have hblocks : 0 < nBlocks pInData.length := by
    rw [nBlocks_eq hwrap.1]
    omega
  have hfits : (encoded key pInData).length < 2 ^ 32 := by
    rw [length_encoded hwrap]
    omega
  have hfield : lengthField (padded pInData) = pInData.length := by
    rw [padded_eq hwrap]
    exact lengthField_append (by omega)
  have hinside : ¬(padded pInData).length < pInData.length := by
    rw [length_padded hwrap, ← nEncryptLen_eq hwrap]
    omega
  refine ⟨hwrap, _, _, (padded pInData).take pInData.length ++ [0], encrypt_eq hne hwrap, ?_, ?_⟩
  · have hwhole : u32 (encoded key pInData).length = (encoded key pInData).length :=
      Nat.mod_eq_of_lt hfits
    rw [hwhole, List.take_length, List.take_left, encoded,
      decrypt_encode hblocks (length_padded hwrap) hfits, unpack, hfield]
    exact if_neg hinside
  · rw [padded_eq hwrap, List.append_assoc, List.take_left, List.take_left]

/-- A text of `2 ^ 32` characters is cut, and too short for the data. -/
theorem not_roundTrip (key : Key) (hne : pInData ≠ []) (h : 3 * 2 ^ 30 ≤ pInData.length + 19) :
    ¬RoundTrip key pInData := by
  rintro ⟨hwrap, out, nOutLen, memory, hencrypt, hdecrypt, -⟩
  rw [encrypt_eq hne hwrap] at hencrypt
  obtain ⟨-, hout, hnOutLen⟩ := Outcome.mk.inj (Except.ok.inj hencrypt)
  have hcut : nOutLen = u32 (encoded key pInData).length := (Option.some.inj hnOutLen).symm
  have htext : (out.take nOutLen).length ≤ nOutLen := List.length_take_le nOutLen out
  have hlt : nOutLen < 2 ^ 32 := hcut ▸ Nat.mod_lt _ (Nat.two_pow_pos 32)
  have hle : pInData.length ≤ (base64Decode (out.take nOutLen)).length :=
    le_of_decrypt (htext.trans_lt hlt) hdecrypt
  have hdecoded := length_base64Decode_le (out.take nOutLen)
  -- the text has `2 ^ 32` characters or more, and what is left of it less than a third of them
  have hlong : 2 ^ 32 ≤ (encoded key pInData).length := by
    rw [length_encoded hwrap]
    omega
  have hshort : 3 * (encoded key pInData).length ≤ 4 * (pInData.length + 21) := by
    rw [length_encoded hwrap]
    omega
  rw [u32] at hcut
  omega

end RoundTrip

/-- Bytes whose number is a `uint32_t`, as both functions take it. -/
def Bytes := { bytes : List UInt8 // bytes.length < 2 ^ 32 }

/-- Data that is not empty is encrypted and decrypted to the same data. -/
def Restored (key : Key) (input : Bytes) : Prop := input.1 ≠ [] → RoundTrip key input.1

/-- The length that is reported is that of bytes in front of the last four. -/
def Sound (key : Key) (text : Bytes) : Prop :=
  ∀ nOutLen, (decrypt key text.1).ret = 0 → (decrypt key text.1).nOutLen = some nOutLen →
    nOutLen + 4 ≤ (base64Decode text.1).length

/-- If the text is of whole blocks, the number in the last four bytes of the data is none of the
four largest that the length allows. -/
def FieldApart (key : Key) (text : Bytes) : Prop :=
  ∀ data, Encrypts key data text.1 →
    lengthField data + 4 ≤ data.length ∨ data.length < lengthField data

theorem restored_iff (key : Key) (input : Bytes) :
    Restored key input ↔ input.1.length + 19 < 3 * 2 ^ 30 := by
  constructor
  · intro hrestored
    by_contra hlong
    have hne : input.1 ≠ [] := by
      rintro hnil
      rw [hnil, List.length_nil] at hlong
      omega
    exact not_roundTrip key hne (Nat.not_lt.mp hlong) (hrestored hne)
  · intro hlen hne
    exact roundTrip key hne hlen

theorem sound_iff (key : Key) (text : Bytes) : Sound key text ↔ FieldApart key text := by
  constructor
  · intro hsound data hencrypts
    obtain ⟨hwhole, rfl⟩ := encrypts_iff.mp hencrypts
    have hdecrypt : decrypt key text.1 = unpack (blocks key text.1) := decrypt_of_whole text.2 hwhole
    by_cases hle : lengthField (blocks key text.1) ≤ (blocks key text.1).length
    · left
      rw [length_blocks hwhole]
      refine hsound _ ?_ ?_
      · rw [hdecrypt]
        exact ret_unpack_iff.mpr hle
      · rw [hdecrypt]
        exact nOutLen_unpack _
    · exact .inr (Nat.not_le.mp hle)
  · intro hapart nOutLen hret hfield
    obtain ⟨hwhole, hdecrypt⟩ := decrypt_eq_of_ret text.2 hret
    have hdata := hapart _ (encrypts_iff.mpr ⟨hwhole, rfl⟩)
    rw [hdecrypt, ret_unpack_iff] at hret
    rw [hdecrypt, nOutLen_unpack] at hfield
    have hlen : (blocks key text.1).length = (base64Decode text.1).length := length_blocks hwhole
    rw [← Option.some.inj hfield, ← hlen]
    exact hdata.resolve_right (Nat.not_lt.mpr hret)

/-- The round trip holds exactly up to a length of three quarters of `2 ^ 32`, and the length that
is reported for a text is sound exactly if the number in the last four bytes of its data is not too
large by one to four. -/
theorem envelope_iff (key : Key) (input text : Bytes) :
    (Restored key input ↔ input.1.length + 19 < 3 * 2 ^ 30) ∧
      (Sound key text ↔ FieldApart key text) :=
  ⟨restored_iff key input, sound_iff key text⟩

/-- A block that ends with the number 13. -/
def thirteen : Block := fun i => if i = 15 then 13 else 0

/-- With every key there is a text of one block for which 13 bytes of data are reported. -/
theorem not_envelope :
    ¬ ∃ key : Key, ∀ input text : Bytes, Restored key input ∧ Sound key text := by
  rintro ⟨key, h⟩
  have hblock : (List.ofFn thirteen).length = 1 * 16 := List.length_ofFn
  have hfits : (Base64.encode (eachBlock key.encrypt 1 (List.ofFn thirteen))).length < 2 ^ 32 := by
    rw [Base64.length_encode, length_eachBlock]
    decide
  have hdecode : base64Decode (Base64.encode (eachBlock key.encrypt 1 (List.ofFn thirteen))) =
      eachBlock key.encrypt 1 (List.ofFn thirteen) := decodeLoop_encode _ [] 0
  have hsound := (h ⟨[], Nat.two_pow_pos 32⟩ ⟨_, hfits⟩).2 13
  rw [decrypt_encode Nat.one_pos hblock hfits, hdecode, length_eachBlock] at hsound
  exact absurd (hsound rfl rfl) (by decide)

end CAes

end ImServer
