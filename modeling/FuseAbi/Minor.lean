import FuseAbi.Text

/-!
# Protocol minors

Kernel and filesystem agree on a minor version of protocol 7 when a mount starts. A minor decides which
opcodes may occur; it changes no layout, since every request struct has had its present layout since 7.23,
the oldest minor spoken here.
-/

namespace FuseAbi

/-- A minor version of protocol 7 that requests can be decoded at. -/
structure Minor where
  number : Nat
  oldest_le : 23 ≤ number := by decide
  le_newest : number ≤ 31 := by decide
deriving DecidableEq, Repr

namespace Minor

def oldest : Minor where
  number := 23

/-- The newest minor, taken where nothing else was agreed. -/
def newest : Minor where
  number := 31

instance : Inhabited Minor := ⟨newest⟩

/-- A number that is no minor spoken here. -/
structure Unsupported where
  number : UInt32
deriving DecidableEq, Repr

def Unsupported.message (u : Unsupported) : Bytes :=
  ascii "unsupported FUSE protocol minor " ++ decimal u.number.toNat ++ ascii " (need " ++
    decimal oldest.number ++ ascii ".." ++ decimal newest.number ++ ascii ")"

/-- The minor with the given number. -/
def ofNumber (n : UInt32) : Except Unsupported Minor :=
  if h : 23 ≤ n.toNat ∧ n.toNat ≤ 31 then .ok ⟨n.toNat, h.1, h.2⟩ else .error ⟨n⟩

end Minor

end FuseAbi
