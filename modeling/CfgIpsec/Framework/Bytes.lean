import Mathlib.Data.List.Basic
import Mathlib.Tactic.Ring

/-!
# Byte strings and fixed-width fields

Fields of a packed record in memory order. `leBytes n x` is the `n` low bytes
of `x`, least significant first, and `ofLE` reads them back
(`ofLE_leBytes`); `le x` and `be x` are the bytes of a machine word in either
order. `getLE bs off w` is the field of `w` bits at `off`, and
`getLE_append_left`, `getLE_append_right`, `getLE_le_append` find it in a
record written as a concatenation of fields.
-/

namespace CfgIpsec

abbrev Byte := BitVec 8
abbrev Bytes := List Byte

instance : LawfulBEq Byte := inferInstance

/-! ## Little-endian numerals -/

/-- The `n` low bytes of `x`, least significant first. -/
def leBytes : Nat → Nat → Bytes
  | 0, _ => []
  | n + 1, x => BitVec.ofNat 8 x :: leBytes n (x / 256)

/-- The number whose bytes are `bs`, least significant first. -/
def ofLE : Bytes → Nat
  | [] => 0
  | b :: bs => b.toNat + 256 * ofLE bs

@[simp] theorem length_leBytes (n x : Nat) : (leBytes n x).length = n := by
  induction n generalizing x with
  | zero => rfl
  | succ n ih => simp [leBytes, ih]

theorem ofLE_leBytes (n x : Nat) : ofLE (leBytes n x) = x % 256 ^ n := by
  induction n generalizing x with
  | zero => simp [leBytes, ofLE, Nat.mod_one]
  | succ n ih =>
    rw [leBytes, ofLE, ih, BitVec.toNat_ofNat, Nat.pow_succ (m := n), Nat.mul_comm _ 256, Nat.mod_mul]

/-! ## Fields -/

/-- The bytes of a word, least significant first. -/
def le {w : Nat} (x : BitVec w) : Bytes := leBytes (w / 8) x.toNat

/-- The bytes of a word, most significant first. -/
def be {w : Nat} (x : BitVec w) : Bytes := (le x).reverse

@[simp] theorem length_le {w : Nat} (x : BitVec w) : (le x).length = w / 8 := by
  simp [le]

@[simp] theorem length_be {w : Nat} (x : BitVec w) : (be x).length = w / 8 := by
  simp [be]

/-- The `w`-bit field at `off`, least significant byte first. -/
def getLE (bs : Bytes) (off w : Nat) : BitVec w :=
  BitVec.ofNat w (ofLE ((bs.drop off).take (w / 8)))

/-- The `w`-bit field at `off`, most significant byte first. -/
def getBE (bs : Bytes) (off w : Nat) : BitVec w :=
  BitVec.ofNat w (ofLE ((bs.drop off).take (w / 8)).reverse)

/-- Reading a field, refused when it is not whole in `bs`. -/
def getLE? (bs : Bytes) (off w : Nat) : Option (BitVec w) :=
  if off + w / 8 ≤ bs.length then some (getLE bs off w) else none

/-- Reading a field, refused when it is not whole in `bs`. -/
def getBE? (bs : Bytes) (off w : Nat) : Option (BitVec w) :=
  if off + w / 8 ≤ bs.length then some (getBE bs off w) else none

theorem ofNat_ofLE_le {w : Nat} (hw : w % 8 = 0) (x : BitVec w) :
    BitVec.ofNat w (ofLE (le x)) = x := by
  have e : (256 : Nat) ^ (w / 8) = 2 ^ w := by
    rw [show (256 : Nat) = 2 ^ 8 by rfl, ← Nat.pow_mul, show 8 * (w / 8) = w by omega]
  rw [le, ofLE_leBytes, e, Nat.mod_eq_of_lt x.isLt, BitVec.ofNat_toNat, BitVec.setWidth_eq]

theorem getLE_append_right {xs : Bytes} (ys : Bytes) {off : Nat} (w : Nat) (h : xs.length ≤ off) :
    getLE (xs ++ ys) off w = getLE ys (off - xs.length) w := by
  rw [getLE, getLE, List.drop_append, List.drop_eq_nil_of_le h, List.nil_append]

theorem getBE_append_right {xs : Bytes} (ys : Bytes) {off : Nat} (w : Nat) (h : xs.length ≤ off) :
    getBE (xs ++ ys) off w = getBE ys (off - xs.length) w := by
  rw [getBE, getBE, List.drop_append, List.drop_eq_nil_of_le h, List.nil_append]

theorem take_drop_append_left {xs : Bytes} (ys : Bytes) {off n : Nat} (h : off + n ≤ xs.length) :
    ((xs ++ ys).drop off).take n = (xs.drop off).take n := by
  rw [List.drop_append, List.take_append_of_le_length (by rw [List.length_drop]; omega)]

theorem getLE_append_left {xs : Bytes} (ys : Bytes) {off w : Nat} (h : off + w / 8 ≤ xs.length) :
    getLE (xs ++ ys) off w = getLE xs off w := by
  rw [getLE, getLE, take_drop_append_left ys h]

theorem getBE_append_left {xs : Bytes} (ys : Bytes) {off w : Nat} (h : off + w / 8 ≤ xs.length) :
    getBE (xs ++ ys) off w = getBE xs off w := by
  rw [getBE, getBE, take_drop_append_left ys h]

theorem getLE_le_append {w : Nat} (hw : w % 8 = 0) (x : BitVec w) (ys : Bytes) :
    getLE (le x ++ ys) 0 w = x := by
  rw [getLE, List.drop_zero, List.take_left' (length_le x), ofNat_ofLE_le hw]

theorem getBE_be_append {w : Nat} (hw : w % 8 = 0) (x : BitVec w) (ys : Bytes) :
    getBE (be x ++ ys) 0 w = x := by
  rw [getBE, List.drop_zero, List.take_left' (length_be x), be, List.reverse_reverse, ofNat_ofLE_le hw]

/-- A field of what lies after `off`. -/
theorem getLE_drop (bs : Bytes) (off k w : Nat) : getLE (bs.drop off) k w = getLE bs (off + k) w := by
  rw [getLE, getLE, List.drop_drop]

theorem getBE_drop (bs : Bytes) (off k w : Nat) : getBE (bs.drop off) k w = getBE bs (off + k) w := by
  rw [getBE, getBE, List.drop_drop]

/-- A field depends only on its own bytes. -/
theorem getLE_take {bs : Bytes} {off w n : Nat} (h : off + w / 8 ≤ n) :
    getLE (bs.take n) off w = getLE bs off w := by
  rw [getLE, getLE, List.drop_take, List.take_take, Nat.min_eq_left (by omega)]

theorem getLE?_eq_some {bs : Bytes} {off w : Nat} (h : off + w / 8 ≤ bs.length) :
    getLE? bs off w = some (getLE bs off w) := by
  rw [getLE?, if_pos h]

theorem getBE?_eq_some {bs : Bytes} {off w : Nat} (h : off + w / 8 ≤ bs.length) :
    getBE? bs off w = some (getBE bs off w) := by
  rw [getBE?, if_pos h]

theorem eq_of_getLE? {bs : Bytes} {off w : Nat} {x : BitVec w} (h : getLE? bs off w = some x) :
    x = getLE bs off w := by
  rw [getLE?] at h
  split at h <;> cases h
  rfl

theorem eq_of_getBE? {bs : Bytes} {off w : Nat} {x : BitVec w} (h : getBE? bs off w = some x) :
    x = getBE bs off w := by
  rw [getBE?] at h
  split at h <;> cases h
  rfl

/-- A field of what stands between other bytes. -/
theorem getLE?_within (pre post : Bytes) {e : Bytes} (off : Nat) {w : Nat} (h : off + w / 8 ≤ e.length) :
    getLE? (pre ++ (e ++ post)) (pre.length + off) w = some (getLE e off w) := by
  rw [getLE?_eq_some (by simp only [List.length_append]; omega), getLE_append_right _ _ (by omega),
    Nat.add_sub_cancel_left, getLE_append_left _ h]

theorem getBE?_within (pre post : Bytes) {e : Bytes} (off : Nat) {w : Nat} (h : off + w / 8 ≤ e.length) :
    getBE? (pre ++ (e ++ post)) (pre.length + off) w = some (getBE e off w) := by
  rw [getBE?_eq_some (by simp only [List.length_append]; omega), getBE_append_right _ _ (by omega),
    Nat.add_sub_cancel_left, getBE_append_left _ h]

theorem getLE_within (pre post : Bytes) {e : Bytes} (off : Nat) {w : Nat} (h : off + w / 8 ≤ e.length) :
    getLE (pre ++ (e ++ post)) (pre.length + off) w = getLE e off w :=
  (eq_of_getLE? (getLE?_within pre post off h)).symm

theorem getBE_within (pre post : Bytes) {e : Bytes} (off : Nat) {w : Nat} (h : off + w / 8 ≤ e.length) :
    getBE (pre ++ (e ++ post)) (pre.length + off) w = getBE e off w :=
  (eq_of_getBE? (getBE?_within pre post off h)).symm

end CfgIpsec
