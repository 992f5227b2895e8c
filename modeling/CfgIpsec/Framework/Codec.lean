import CfgIpsec.Framework.Bytes

/-!
# Records of fixed size

A `Codec` writes a value as `size` bytes and reads it back from any bytes that
start with them. Codecs of words (`Codec.le`, `Codec.be`) compose to those of
records (`Codec.prod`, `Codec.iso`), so that a record's layout is stated once.
-/

namespace CfgIpsec

structure Codec (α : Type) where
  size : Nat
  put : α → Bytes
  get : Bytes → α
  length_put : ∀ a, (put a).length = size
  get_put : ∀ a bs, get (put a ++ bs) = a

namespace Codec

variable {α β : Type}

attribute [simp] length_put get_put

/-- A word, least significant byte first. -/
def le (w : Nat) (hw : w % 8 = 0) : Codec (BitVec w) where
  size := w / 8
  put := CfgIpsec.le
  get bs := getLE bs 0 w
  length_put := length_le
  get_put := getLE_le_append hw

/-- A word, most significant byte first. -/
def be (w : Nat) (hw : w % 8 = 0) : Codec (BitVec w) where
  size := w / 8
  put := CfgIpsec.be
  get bs := getBE bs 0 w
  length_put := length_be
  get_put := getBE_be_append hw

/-- One after the other. -/
def prod (c : Codec α) (d : Codec β) : Codec (α × β) where
  size := c.size + d.size
  put x := c.put x.1 ++ d.put x.2
  get bs := (c.get bs, d.get (bs.drop c.size))
  length_put x := by rw [List.length_append, c.length_put, d.length_put]
  get_put x bs := by
    rw [List.append_assoc, c.get_put, List.drop_left' (c.length_put x.1), d.get_put]

/-- A record with the fields of `c`. -/
def iso (c : Codec α) (pack : α → β) (fields : β → α) (h : ∀ b, pack (fields b) = b) : Codec β where
  size := c.size
  put b := c.put (fields b)
  get bs := pack (c.get bs)
  length_put b := c.length_put (fields b)
  get_put b bs := by rw [c.get_put, h]

/-- What a codec wrote is read back also where nothing follows. -/
@[simp] theorem get_put_nil (c : Codec α) (a : α) : c.get (c.put a) = a := by
  simpa using c.get_put a []

end Codec

end CfgIpsec
