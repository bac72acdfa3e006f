import Mathlib.Data.Finite.Prod
import Mathlib.Data.List.GetD
import XrkMonitor.Library.Rounds
import XrkMonitor.Packet.Signature

/-!
# The block cipher of both sides

`aes.cpp` enciphers blocks of sixteen bytes in rounds over a state of four rows,
and behind the data always puts a block that says how many bytes of it are none.
Every step of `cipher` has its inverse in `inv_cipher`, whatever the key schedule
is, so that `aes_decipher_data` gives back what `aes_cipher_data` was given.

## Implementation notes

`state[Nb*i+j]` is byte `j` of row `i`, and `w[4*i+j]` byte `j` of word `i`. A key
is read as far as its length asks for; bytes behind its end are zero here. The
functions on files are left out, as no program calls them.
-/

namespace XrkMonitor.Cipher

open Library
open Packet (AesKeyLen InvCipher decipherBlocks aesDecipherData)

section Field

/-- The rounds of `gmult`: `p` is what has been added up. -/
def gmultRounds : Nat → UInt8 → UInt8 → UInt8 → UInt8
  | 0, _, _, p => p
  | i + 1, a, b, p =>
    gmultRounds i (if a &&& 128 = 0 then a <<< 1 else a <<< 1 ^^^ 27) (b >>> 1)
      (if b &&& 1 = 0 then p else p ^^^ a)

/-- `gmult`: the product of two bytes. -/
def gmult (a b : UInt8) : UInt8 := gmultRounds 8 a b 0

/-- Four bytes of a row, a column or a key. -/
abbrev Word := Vector UInt8 4

/-- `coef_add`. -/
def coefAdd (a b : Word) : Word := Vector.ofFn fun i => a[i] ^^^ b[i]

/-- `coef_mult`. -/
def coefMult (a b : Word) : Word :=
  #v[gmult a[0] b[0] ^^^ gmult a[3] b[1] ^^^ gmult a[2] b[2] ^^^ gmult a[1] b[3],
    gmult a[1] b[0] ^^^ gmult a[0] b[1] ^^^ gmult a[3] b[2] ^^^ gmult a[2] b[3],
    gmult a[2] b[0] ^^^ gmult a[1] b[1] ^^^ gmult a[0] b[2] ^^^ gmult a[3] b[3],
    gmult a[3] b[0] ^^^ gmult a[2] b[1] ^^^ gmult a[1] b[2] ^^^ gmult a[0] b[3]]

end Field

section Tables

/-- `s_box`. -/
def s_box : List UInt8 :=
  [99, 124, 119, 123, 242, 107, 111, 197, 48, 1, 103, 43, 254, 215, 171, 118, 202, 130, 201, 125,
    250, 89, 71, 240, 173, 212, 162, 175, 156, 164, 114, 192, 183, 253, 147, 38, 54, 63, 247, 204,
    52, 165, 229, 241, 113, 216, 49, 21, 4, 199, 35, 195, 24, 150, 5, 154, 7, 18, 128, 226, 235, 39,
    178, 117, 9, 131, 44, 26, 27, 110, 90, 160, 82, 59, 214, 179, 41, 227, 47, 132, 83, 209, 0, 237,
    32, 252, 177, 91, 106, 203, 190, 57, 74, 76, 88, 207, 208, 239, 170, 251, 67, 77, 51, 133, 69,
    249, 2, 127, 80, 60, 159, 168, 81, 163, 64, 143, 146, 157, 56, 245, 188, 182, 218, 33, 16, 255,
    243, 210, 205, 12, 19, 236, 95, 151, 68, 23, 196, 167, 126, 61, 100, 93, 25, 115, 96, 129, 79,
    220, 34, 42, 144, 136, 70, 238, 184, 20, 222, 94, 11, 219, 224, 50, 58, 10, 73, 6, 36, 92, 194,
    211, 172, 98, 145, 149, 228, 121, 231, 200, 55, 109, 141, 213, 78, 169, 108, 86, 244, 234, 101,
    122, 174, 8, 186, 120, 37, 46, 28, 166, 180, 198, 232, 221, 116, 31, 75, 189, 139, 138, 112, 62,
    181, 102, 72, 3, 246, 14, 97, 53, 87, 185, 134, 193, 29, 158, 225, 248, 152, 17, 105, 217, 142,
    148, 155, 30, 135, 233, 206, 85, 40, 223, 140, 161, 137, 13, 191, 230, 66, 104, 65, 153, 45, 15,
    176, 84, 187, 22]

/-- `inv_s_box`. -/
def inv_s_box : List UInt8 :=
  [82, 9, 106, 213, 48, 54, 165, 56, 191, 64, 163, 158, 129, 243, 215, 251, 124, 227, 57, 130,
    155, 47, 255, 135, 52, 142, 67, 68, 196, 222, 233, 203, 84, 123, 148, 50, 166, 194, 35, 61, 238,
    76, 149, 11, 66, 250, 195, 78, 8, 46, 161, 102, 40, 217, 36, 178, 118, 91, 162, 73, 109, 139,
    209, 37, 114, 248, 246, 100, 134, 104, 152, 22, 212, 164, 92, 204, 93, 101, 182, 146, 108, 112,
    72, 80, 253, 237, 185, 218, 94, 21, 70, 87, 167, 141, 157, 132, 144, 216, 171, 0, 140, 188, 211,
    10, 247, 228, 88, 5, 184, 179, 69, 6, 208, 44, 30, 143, 202, 63, 15, 2, 193, 175, 189, 3, 1, 19,
    138, 107, 58, 145, 17, 65, 79, 103, 220, 234, 151, 242, 207, 206, 240, 180, 230, 115, 150, 172,
    116, 34, 231, 173, 53, 133, 226, 249, 55, 232, 28, 117, 223, 110, 71, 241, 26, 113, 29, 41, 197,
    137, 111, 183, 98, 14, 170, 24, 190, 27, 252, 86, 62, 75, 198, 210, 121, 32, 154, 219, 192, 254,
    120, 205, 90, 244, 31, 221, 168, 51, 136, 7, 199, 49, 177, 18, 16, 89, 39, 128, 236, 95, 96, 81,
    127, 169, 25, 181, 74, 13, 45, 229, 122, 159, 147, 201, 156, 239, 160, 224, 59, 77, 174, 42,
    245, 176, 200, 235, 187, 60, 131, 83, 153, 97, 23, 43, 4, 126, 186, 119, 214, 38, 225, 105, 20,
    99, 85, 33, 12, 125]

/-- The entry of a table for a byte, by its two halves. -/
def boxAt (box : List UInt8) (x : UInt8) : UInt8 :=
  box.getD (16 * ((x &&& 240) >>> 4).toNat + (x &&& 15).toNat) 0

end Tables

section Steps

abbrev State := Vector Word 4

/-- `sub_word`. -/
def subWord (w : Word) : Word := w.map (boxAt s_box)

/-- `rot_word`, which is also one turn of a row in `shift_rows`. -/
def rotWord (w : Word) : Word := #v[w[1], w[2], w[3], w[0]]

/-- One turn of a row in `inv_shift_rows`. -/
def rotBack (w : Word) : Word := #v[w[3], w[0], w[1], w[2]]

/-- `Rcon`: the first byte, the others are zero. -/
def Rcon (i : Nat) : UInt8 := if i = 1 then 1 else (fun r => gmult r 2)^[i - 2] 2

/-- `add_round_key`. -/
def addRoundKey (w : List Word) (r : Nat) (state : State) : State :=
  Vector.ofFn fun i => Vector.ofFn fun c => state[i][c] ^^^ (w.getD (4 * r + c) default)[i]

/-- Column `j` of a state. -/
def column (state : State) (j : Fin 4) : Word := Vector.ofFn fun i => state[i][j]

/-- The columns, each multiplied by `a`. -/
def mulColumns (a : Word) (state : State) : State :=
  Vector.ofFn fun i => Vector.ofFn fun j => (coefMult a (column state j))[i]

/-- `mix_columns`. -/
def mixColumns : State → State := mulColumns #v[2, 1, 1, 3]

/-- `inv_mix_columns`. -/
def invMixColumns : State → State := mulColumns #v[14, 9, 13, 11]

/-- `shift_rows`. -/
def shiftRows (state : State) : State := Vector.ofFn fun i => rotWord^[i] state[i]

/-- `inv_shift_rows`. -/
def invShiftRows (state : State) : State := Vector.ofFn fun i => rotBack^[i] state[i]

/-- `sub_bytes`. -/
def subBytes (state : State) : State := state.map subWord

/-- `inv_sub_bytes`. -/
def invSubBytes (state : State) : State := state.map fun w => w.map (boxAt inv_s_box)

end Steps

section Rounds

/-- `Nk` and `Nr` as `aes_init` sets them. -/
def aesInit (key_len : Nat) : Nat × Nat :=
  if key_len = 24 then (6, 12) else if key_len = 32 then (8, 14) else (4, 10)

/-- The next word of `key_expansion`, number `i`. -/
def nextWord (Nk i : Nat) (w : List Word) : Word :=
  let tmp := w.getD (i - 1) default
  let tmp :=
    if i % Nk = 0 then coefAdd (subWord (rotWord tmp)) #v[Rcon (i / Nk), 0, 0, 0]
    else if 6 < Nk ∧ i % Nk = 4 then subWord tmp
    else tmp
  coefAdd (w.getD (i - Nk) default) tmp

/-- `key_expansion`. -/
def keyExpansion (key_len : Nat) (key : List UInt8) : List Word :=
  let (Nk, Nr) := aesInit key_len
  (List.range' Nk (4 * (Nr + 1) - Nk)).foldl (fun w i => w ++ [nextWord Nk i w])
    ((List.range Nk).map fun i => Vector.ofFn fun j => key.getD (4 * i + j) 0)

/-- The state that a block is read into. -/
def load (block : List UInt8) : State :=
  Vector.ofFn fun i => Vector.ofFn fun j => block.getD (i + 4 * j) 0

/-- The block that a state is written to. -/
def store (state : State) : Vector UInt8 16 :=
  Vector.ofFn fun k => state[k.val % 4][k.val / 4]

/-- A round of `cipher`. -/
def cipherRound (w : List Word) (state : State) (r : Nat) : State :=
  addRoundKey w r (mixColumns (shiftRows (subBytes state)))

/-- A round of `inv_cipher`. -/
def invCipherRound (w : List Word) (state : State) (r : Nat) : State :=
  invMixColumns (addRoundKey w r (invSubBytes (invShiftRows state)))

/-- `cipher`. -/
def cipher (Nr : Nat) (w : List Word) (block : List UInt8) : Vector UInt8 16 :=
  let state := (List.range' 1 (Nr - 1)).foldl (cipherRound w) (addRoundKey w 0 (load block))
  store (addRoundKey w Nr (shiftRows (subBytes state)))

/-- `inv_cipher`. -/
def invCipher (Nr : Nat) (w : List Word) (block : List UInt8) : Vector UInt8 16 :=
  let state :=
    (List.range' 1 (Nr - 1)).reverse.foldl (invCipherRound w) (addRoundKey w Nr (load block))
  store (addRoundKey w 0 (invSubBytes (invShiftRows state)))

end Rounds

section Data

/-- `AES_128` and `AES_256`. -/
def keyLen : AesKeyLen → Nat
  | .aes128 => 16
  | .aes256 => 32

/-- The blocks of the data, and the one with the padding. -/
def cipherBlocks (enc : List UInt8 → Vector UInt8 16) : Nat → List UInt8 → List UInt8
  | 0, rest =>
    (enc (rest ++ List.replicate (16 - rest.length) (UInt8.ofNat (16 - rest.length)))).toList
  | n + 1, input => (enc (input.take 16)).toList ++ cipherBlocks enc n (input.drop 16)

/-- `aes_cipher_data`. -/
def aesCipherData (len : AesKeyLen) (key input : List UInt8) : List UInt8 :=
  cipherBlocks (cipher (aesInit (keyLen len)).2 (keyExpansion (keyLen len) key))
    (input.length / 16) input

/-- `inv_cipher` under the schedule of a key. -/
def aesInv : InvCipher := fun len key =>
  invCipher (aesInit (keyLen len)).2 (keyExpansion (keyLen len) key)

end Data

section Field

theorem and_one_xor (b c : UInt8) : (b ^^^ c) &&& 1 = b &&& 1 ^^^ c &&& 1 := by
  apply UInt8.toBitVec_inj.mp
  rw [UInt8.toBitVec_and, UInt8.toBitVec_xor, UInt8.toBitVec_xor]
  ext i hi
  simp [Bool.and_xor_distrib_right]

/-- The product is a sum over the bits of its second factor. -/
theorem gmultRounds_xor (n : Nat) (a b c p q : UInt8) :
    gmultRounds n a (b ^^^ c) (p ^^^ q) = gmultRounds n a b p ^^^ gmultRounds n a c q := by
  induction n generalizing a b c p q with
  | zero => rfl
  | succ n ih =>
      have hbit : ∀ x : UInt8, x &&& 1 = 0 ∨ x &&& 1 = 1 := forall_byte (by decide +kernel)
      have hadd : (if (b ^^^ c) &&& 1 = 0 then p ^^^ q else p ^^^ q ^^^ a) =
          (if b &&& 1 = 0 then p else p ^^^ a) ^^^ (if c &&& 1 = 0 then q else q ^^^ a) := by
        rw [and_one_xor]
        rcases hbit b with hb | hb <;> rcases hbit c with hc | hc <;> rw [hb, hc]
        · rfl
        · exact UInt8.xor_assoc p q a
        · change p ^^^ q ^^^ a = p ^^^ a ^^^ q
          ac_rfl
        · change p ^^^ q = p ^^^ a ^^^ (q ^^^ a)
          rw [UInt8.xor_assoc p a, UInt8.xor_comm q a, ← UInt8.xor_assoc a a, UInt8.xor_self,
            UInt8.zero_xor]
      rw [gmultRounds, gmultRounds, gmultRounds, UInt8.shiftRight_xor, hadd]
      exact ih _ _ _ _ _

theorem gmult_xor (a b c : UInt8) : gmult a (b ^^^ c) = gmult a b ^^^ gmult a c :=
  gmultRounds_xor 8 a b c 0 0

/-- The products of the two polynomials of the columns, for each distance of two bytes. -/
theorem gmult_inverse (x : UInt8) :
    (gmult 14 (gmult 2 x) ^^^ gmult 11 (gmult 1 x) ^^^ gmult 13 (gmult 1 x) ^^^
      gmult 9 (gmult 3 x) = x) ∧
    (gmult 9 (gmult 2 x) ^^^ gmult 14 (gmult 1 x) ^^^ gmult 11 (gmult 1 x) ^^^
      gmult 13 (gmult 3 x) = 0) ∧
    (gmult 13 (gmult 2 x) ^^^ gmult 9 (gmult 1 x) ^^^ gmult 14 (gmult 1 x) ^^^
      gmult 11 (gmult 3 x) = 0) ∧
    (gmult 11 (gmult 2 x) ^^^ gmult 13 (gmult 1 x) ^^^ gmult 9 (gmult 1 x) ^^^
      gmult 14 (gmult 3 x) = 0) := by
  revert x
  exact forall_byte (by decide +kernel)

end Field

section Undone

theorem unmix (a b c d : UInt8) :
    gmult 14 (gmult 2 a ^^^ gmult 3 b ^^^ gmult 1 c ^^^ gmult 1 d) ^^^
      gmult 11 (gmult 1 a ^^^ gmult 2 b ^^^ gmult 3 c ^^^ gmult 1 d) ^^^
      gmult 13 (gmult 1 a ^^^ gmult 1 b ^^^ gmult 2 c ^^^ gmult 3 d) ^^^
      gmult 9 (gmult 3 a ^^^ gmult 1 b ^^^ gmult 1 c ^^^ gmult 2 d) = a := by
  obtain ⟨ha, -, -, -⟩ := gmult_inverse a
  obtain ⟨-, -, -, hb⟩ := gmult_inverse b
  obtain ⟨-, -, hc, -⟩ := gmult_inverse c
  obtain ⟨-, hd, -, -⟩ := gmult_inverse d
  calc
    _ = (gmult 14 (gmult 2 a) ^^^ gmult 11 (gmult 1 a) ^^^ gmult 13 (gmult 1 a) ^^^
          gmult 9 (gmult 3 a)) ^^^
        (gmult 11 (gmult 2 b) ^^^ gmult 13 (gmult 1 b) ^^^ gmult 9 (gmult 1 b) ^^^
          gmult 14 (gmult 3 b)) ^^^
        (gmult 13 (gmult 2 c) ^^^ gmult 9 (gmult 1 c) ^^^ gmult 14 (gmult 1 c) ^^^
          gmult 11 (gmult 3 c)) ^^^
        (gmult 9 (gmult 2 d) ^^^ gmult 14 (gmult 1 d) ^^^ gmult 11 (gmult 1 d) ^^^
          gmult 13 (gmult 3 d)) := by
      simp only [gmult_xor]
      ac_rfl
    _ = a := by
      rw [ha, hb, hc, hd, UInt8.xor_zero, UInt8.xor_zero, UInt8.xor_zero]

theorem coefMult_inverse (w : Word) :
    coefMult #v[14, 9, 13, 11] (coefMult #v[2, 1, 1, 3] w) = w := by
  ext i hi : 1
  have h0 := unmix w[0] w[1] w[2] w[3]
  have h1 := unmix w[1] w[2] w[3] w[0]
  have h2 := unmix w[2] w[3] w[0] w[1]
  have h3 := unmix w[3] w[0] w[1] w[2]
  simp only [gmult_xor] at h0 h1 h2 h3
  obtain rfl | rfl | rfl | rfl : i = 0 ∨ i = 1 ∨ i = 2 ∨ i = 3 := by omega
  all_goals
    simp only [coefMult, gmult_xor, Vector.getElem_mk, List.getElem_toArray,
      List.getElem_cons_zero, List.getElem_cons_succ]
  · refine Eq.trans ?_ h0
    ac_rfl
  · refine Eq.trans ?_ h1
    ac_rfl
  · refine Eq.trans ?_ h2
    ac_rfl
  · refine Eq.trans ?_ h3
    ac_rfl

theorem invMixColumns_mixColumns (state : State) : invMixColumns (mixColumns state) = state := by
  have hcol : ∀ (a : Word) (s : State) (j : Fin 4),
      column (mulColumns a s) j = coefMult a (column s j) := by
    intro a s j
    ext i hi : 1
    simp [column, mulColumns]
  ext i hi j hj : 2
  have hentry : (invMixColumns (mixColumns state))[i][j] =
      (coefMult #v[14, 9, 13, 11] (column (mixColumns state) ⟨j, hj⟩))[i] := by
    simp [invMixColumns, mulColumns]
  rw [hentry, mixColumns, hcol, coefMult_inverse]
  simp [column]

theorem addRoundKey_addRoundKey (w : List Word) (r : Nat) (state : State) :
    addRoundKey w r (addRoundKey w r state) = state := by
  ext i hi j hj : 2
  simp only [addRoundKey, Vector.getElem_ofFn, Fin.getElem_fin]
  generalize state[i][j] = x
  generalize (w.getD (4 * r + j) default)[i] = k
  rw [UInt8.xor_assoc, UInt8.xor_self, UInt8.xor_zero]

theorem invShiftRows_shiftRows (state : State) : invShiftRows (shiftRows state) = state := by
  have hturn : Function.LeftInverse rotBack rotWord := by
    intro w
    ext i hi : 1
    obtain rfl | rfl | rfl | rfl : i = 0 ∨ i = 1 ∨ i = 2 ∨ i = 3 := by omega
    all_goals rfl
  ext i hi j hj : 2
  simp only [invShiftRows, shiftRows, Vector.getElem_ofFn, Fin.getElem_fin]
  exact congrArg (fun row : Word => row[j]) (hturn.iterate i state[i])

theorem invSubBytes_subBytes (state : State) : invSubBytes (subBytes state) = state := by
  have hbox : ∀ x, boxAt inv_s_box (boxAt s_box x) = x := forall_byte (by decide +kernel)
  ext i hi j hj : 2
  simp [invSubBytes, subBytes, subWord, hbox]

/-- A state comes back from its block. -/
theorem load_store (state : State) : load (store state).toList = state := by
  ext i hi j hj : 2
  have hrow : (i + 4 * j) % 4 = i := by omega
  have hcol : (i + 4 * j) / 4 = j := by omega
  have hlt : i + 4 * j < (store state).toList.length := by
    rw [Vector.length_toList]
    omega
  simp only [load, Vector.getElem_ofFn]
  rw [List.getD_eq_getElem _ _ hlt]
  simp only [store, Vector.getElem_toList, Vector.getElem_ofFn, hrow, hcol]

theorem store_load {block : List UInt8} (h : block.length = 16) :
    (store (load block)).toList = block := by
  apply List.ext_getElem
  · rw [Vector.length_toList, h]
  · intro k hk hk'
    have hplace : k % 4 + 4 * (k / 4) = k := by omega
    simp only [store, load, Vector.getElem_toList, Vector.getElem_ofFn, hplace]
    exact List.getD_eq_getElem _ _ hk'

/-- `inv_cipher` undoes `cipher` under every schedule. -/
theorem invCipher_cipher (Nr : Nat) (w : List Word) {block : List UInt8} (h : block.length = 16) :
    (invCipher Nr w (cipher Nr w block).toList).toList = block := by
  have hround : ∀ (s : State) (r : Nat),
      invCipherRound w (shiftRows (subBytes (cipherRound w s r))) r = shiftRows (subBytes s) := by
    intro s r
    rw [invCipherRound, invShiftRows_shiftRows, invSubBytes_subBytes, cipherRound,
      addRoundKey_addRoundKey, invMixColumns_mixColumns]
  rw [invCipher, cipher]
  rw [load_store, addRoundKey_addRoundKey,
    foldl_undo (h := fun s => shiftRows (subBytes s)) hround, invShiftRows_shiftRows,
    invSubBytes_subBytes, addRoundKey_addRoundKey, store_load h]

/-- Under every key schedule `cipher` is a permutation of the blocks, and `inv_cipher` its inverse. -/
theorem cipher_bijective (Nr : Nat) (w : List Word) :
    Function.Bijective (fun block : Vector UInt8 16 => cipher Nr w block.toList) ∧
      ∀ block : Vector UInt8 16, cipher Nr w (invCipher Nr w block.toList).toList = block := by
  have hleft : Function.LeftInverse (fun block : Vector UInt8 16 => invCipher Nr w block.toList)
      (fun block : Vector UInt8 16 => cipher Nr w block.toList) := by
    intro block
    exact Vector.toList_inj.mp (invCipher_cipher Nr w Vector.length_toList)
  have hbytes : Finite UInt8 := Finite.of_injective UInt8.toFin fun _ _ => UInt8.toFin_inj.mp
  have hblocks : Finite (Vector UInt8 16) := by
    apply Finite.of_injective fun (block : Vector UInt8 16) (i : Fin 16) => block[i]
    intro a b h
    ext i hi : 1
    exact congrFun h ⟨i, hi⟩
  have hbij := Finite.injective_iff_bijective.mp hleft.injective
  refine ⟨hbij, ?_⟩
  exact (hleft.rightInverse_of_surjective hbij.surjective)

/-- The known block of sixteen bytes under the key 0, 1, …, 15. -/
example :
    cipher 10 (keyExpansion 16 ((List.range 16).map UInt8.ofNat))
        ((List.range 16).map fun k => UInt8.ofNat (17 * k)) =
      #v[105, 196, 224, 216, 106, 123, 4, 48, 216, 205, 183, 128, 112, 180, 197, 90] := by
  decide +kernel

end Undone

section RoundTrip

variable {len : AesKeyLen} {key input : List UInt8}

/-- The bytes that the last block puts behind `n` bytes. -/
def padding (n : Nat) : List UInt8 := List.replicate (16 - n % 16) (UInt8.ofNat (16 - n % 16))

theorem length_cipherBlocks (enc : List UInt8 → Vector UInt8 16) (n : Nat) (input : List UInt8) :
    (cipherBlocks enc n input).length = (n + 1) * 16 := by
  induction n generalizing input with
  | zero => rw [cipherBlocks, Vector.length_toList]
  | succ n ih =>
      rw [cipherBlocks, List.length_append, Vector.length_toList, ih]
      omega

/-- The blocks are deciphered one by one. -/
theorem decipherBlocks_cipherBlocks {enc dec : List UInt8 → Vector UInt8 16}
    (hdec : ∀ block : List UInt8, block.length = 16 → (dec (enc block).toList).toList = block)
    (n : Nat) (input : List UInt8) (hn : input.length / 16 = n) :
    decipherBlocks dec (n + 1) (cipherBlocks enc n input) = input ++ padding input.length := by
  induction n generalizing input with
  | zero =>
      have hlt : input.length < 16 := by omega
      rw [decipherBlocks, decipherBlocks, cipherBlocks, List.append_nil, List.take_of_length_le,
        hdec, padding, Nat.mod_eq_of_lt hlt]
      · rw [List.length_append, List.length_replicate]
        omega
      · rw [Vector.length_toList]
  | succ n ih =>
      have hlen : (input.take 16).length = 16 := by
        rw [List.length_take]
        omega
      have hrest : (input.drop 16).length = input.length - 16 := List.length_drop
      have hpad : padding (input.drop 16).length = padding input.length := by
        rw [padding, padding, hrest, show (input.length - 16) % 16 = input.length % 16 by omega]
      rw [decipherBlocks, cipherBlocks, List.take_left' Vector.length_toList,
        List.drop_left' Vector.length_toList, hdec _ hlen, ih _ (by omega), hpad,
        ← List.append_assoc, List.take_append_drop]

theorem length_aesCipherData :
    (aesCipherData len key input).length = (input.length / 16 + 1) * 16 :=
  length_cipherBlocks _ _ _

/-- What was enciphered comes back, with the padding behind it, and with its length. -/
theorem aesDecipherData_aesCipherData (before : UInt8) (h : input.length + 16 ≤ 2 ^ 64) :
    aesDecipherData aesInv before len key (aesCipherData len key input) =
      some (input ++ padding input.length, input.length) := by
  have hblocks : decipherBlocks (aesInv len key) (input.length / 16 + 1)
      (aesCipherData len key input) = input ++ padding input.length :=
    decipherBlocks_cipherBlocks (fun block hblock => invCipher_cipher _ _ hblock) _ _ rfl
  have hpad : (padding input.length).length = 16 - input.length % 16 := List.length_replicate
  have hlast : (input ++ padding input.length).getD ((input.length / 16 + 1) * 16 - 1) 0 =
      UInt8.ofNat (16 - input.length % 16) := by
    rw [List.getD_append_right _ _ _ _ (by omega), padding, List.getD_replicate]
    omega
  have hbyte : (UInt8.ofNat (16 - input.length % 16)).toNat = 16 - input.length % 16 := by
    rw [UInt8.toNat_ofNat']
    omega
  rw [aesDecipherData, length_aesCipherData, if_neg (by omega)]
  dsimp only
  rw [if_neg (by omega), Nat.mul_div_cancel _ (by decide), hblocks, hlast, hbyte]
  congr 2
  omega

/-- A key is read no further than its length. -/
theorem keyExpansion_take (len : AesKeyLen) (key : List UInt8) :
    keyExpansion (keyLen len) (key.take (keyLen len)) = keyExpansion (keyLen len) key := by
  have hNk : (aesInit (keyLen len)).1 * 4 = keyLen len := by
    cases len with
    | aes128 => rfl
    | aes256 => rfl
  have hread : ∀ i < (aesInit (keyLen len)).1, ∀ j : Fin 4,
      (key.take (keyLen len)).getD (4 * i + j) 0 = key.getD (4 * i + j) 0 := by
    intro i hi j
    rw [List.getD_eq_getElem?_getD, List.getElem?_take_of_lt (by omega), ← List.getD_eq_getElem?_getD]
  rw [keyExpansion, keyExpansion]
  dsimp only
  congr 1
  apply List.map_congr_left
  intro i hi
  simp only [hread i (List.mem_range.mp hi)]

theorem aesCipherData_take (len : AesKeyLen) (key input : List UInt8) :
    aesCipherData len (key.take (keyLen len)) input = aesCipherData len key input := by
  rw [aesCipherData, keyExpansion_take]
  rfl

/-- Whatever is enciphered, under a key of either length: the blocks are as many as the callers make
room for, and deciphering them gives the data and its length. -/
theorem aes_round_trip (before : UInt8) (len : AesKeyLen) (key input : List UInt8) :
    input.length + 16 ≤ 2 ^ 64 →
      (aesCipherData len key input).length = (input.length / 16 + 1) * 16 ∧
      ∃ out, aesDecipherData aesInv before len key (aesCipherData len key input) =
          some (out, input.length) ∧ out.take input.length = input := by
  intro h
  refine ⟨length_aesCipherData, _, aesDecipherData_aesCipherData before h, ?_⟩
  exact List.take_left

theorem aes_round_trip_three :
    ∃ out, aesDecipherData aesInv 0 .aes128 [1] (aesCipherData .aes128 [1] [7, 8, 9]) =
      some (out, 3) ∧ out.take 3 = [7, 8, 9] :=
  (aes_round_trip 0 .aes128 [1] [7, 8, 9] (by decide)).2

end RoundTrip

end XrkMonitor.Cipher
