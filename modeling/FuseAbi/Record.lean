import FuseAbi.Buffer
import FuseAbi.Cursor

/-!
# Fixed-size records

Most requests start with a struct of words in a fixed order, with padding in between. A `Record` type says
which words those are, once; reading, writing and the size all come from that list. Padding is passed over
when it is read and written as zeros, and it has no place in the record's value.

The two laws in `Record` make the words and the record two views of one thing, so a fact about the words of a
layout is a fact about every record type.
-/

namespace FuseAbi

/-- One part of a struct. -/
inductive Field where
  | u32
  | u64
  /-- So many bytes that mean nothing. -/
  | pad (width : Nat)
deriving DecidableEq, Repr

def Field.width : Field → Nat
  | u32 => 4
  | u64 => 8
  | pad width => width

/-- The number of bytes that a layout takes. -/
def layoutSize : List Field → Nat
  | [] => 0
  | field :: rest => field.width + layoutSize rest

/-- The words of a layout, padding left out. -/
def Values : List Field → Type
  | [] => Unit
  | .u32 :: rest => UInt32 × Values rest
  | .u64 :: rest => UInt64 × Values rest
  | .pad _ :: rest => Values rest

namespace Values

/-- Reads the words of a layout, field by field. -/
def read : (layout : List Field) → Scan (Values layout)
  | [] => pure ()
  | .u32 :: rest => do
    let value ← Scan.u32
    let values ← read rest
    return (value, values)
  | .u64 :: rest => do
    let value ← Scan.u64
    let values ← read rest
    return (value, values)
  | .pad width :: rest => do
    Scan.skip width
    read rest

/-- The words of a layout as items, with zeros for the padding. -/
def items : (layout : List Field) → Values layout → List Item
  | [], _ => []
  | .u32 :: rest, (value, values) => .u32 value :: items rest values
  | .u64 :: rest, (value, values) => .u64 value :: items rest values
  | .pad width :: rest, values => .zeros width :: items rest values

end Values

/-- The types whose values stand on the wire as a struct of words. -/
class Record (α : Type) where
  /-- The fields of the struct, in order. -/
  layout : List Field
  ofValues : Values layout → α
  toValues : α → Values layout
  /-- The words of a record determine it. -/
  ofValues_toValues : ∀ a, ofValues (toValues a) = a := by intros; rfl
  /-- A record has just the words it is made of. -/
  toValues_ofValues : ∀ v, toValues (ofValues v) = v := by intros; rfl

namespace Record

def size (α : Type) [Record α] : Nat :=
  layoutSize (layout α)

def read {α : Type} [Record α] : Scan α :=
  ofValues <$> Values.read (layout α)

/-- A record as items to be written. -/
def items {α : Type} [Record α] (a : α) : List Item :=
  Values.items (layout α) (toValues a)

end Record

/-- Nothing at all is a record without fields. -/
instance : Record Unit where
  layout := []
  ofValues _ := ()
  toValues _ := ()

end FuseAbi
