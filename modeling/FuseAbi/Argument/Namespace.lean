import FuseAbi.Argument.Format

/-!
# Arguments of operations on names

Finding, making, removing and moving names in a directory. The directory is the header's node, and where a
second directory is involved its node comes first among the arguments, the names after it.
-/

namespace FuseAbi

/-! ## Records -/

structure MknodArgs where
  mode : UInt32
  /-- The device, for a device file. -/
  rdev : UInt32
  umask : UInt32
deriving DecidableEq, Repr

instance : Record MknodArgs where
  layout := [.u32, .u32, .u32, .pad 4]
  ofValues := fun (mode, rdev, umask, ()) => { mode, rdev, umask }
  toValues a := (a.mode, a.rdev, a.umask, ())

structure MkdirArgs where
  mode : UInt32
  umask : UInt32
deriving DecidableEq, Repr

instance : Record MkdirArgs where
  layout := [.u32, .u32]
  ofValues := fun (mode, umask, ()) => { mode, umask }
  toValues a := (a.mode, a.umask, ())

structure RenameArgs where
  newdir : UInt64
deriving DecidableEq, Repr

instance : Record RenameArgs where
  layout := [.u64]
  ofValues := fun (newdir, ()) => { newdir }
  toValues a := (a.newdir, ())

structure Rename2Args where
  newdir : UInt64
  /-- How the move treats a name that is there already. -/
  flags : UInt32
deriving DecidableEq, Repr

instance : Record Rename2Args where
  layout := [.u64, .u32, .pad 4]
  ofValues := fun (newdir, flags, ()) => { newdir, flags }
  toValues a := (a.newdir, a.flags, ())

/-- The fixed arguments for giving a node a further name. -/
structure LinkArgs where
  oldnodeid : UInt64
deriving DecidableEq, Repr

instance : Record LinkArgs where
  layout := [.u64]
  ofValues := fun (oldnodeid, ()) => { oldnodeid }
  toValues a := (a.oldnodeid, ())

structure CreateArgs where
  flags : UInt32
  mode : UInt32
  umask : UInt32
deriving DecidableEq, Repr

instance : Record CreateArgs where
  layout := [.u32, .u32, .u32, .pad 4]
  ofValues := fun (flags, mode, umask, ()) => { flags, mode, umask }
  toValues a := (a.flags, a.mode, a.umask, ())

namespace Argument

/-! ## A name alone -/

def lookup : Format where
  Fixed := Unit
  tail _ := [.name nameLimit]
  toOperation h _ := fun (name, ()) => .lookup { parent := h.nodeid, name }

def unlink : Format where
  Fixed := Unit
  tail _ := [.name nameLimit]
  toOperation h _ := fun (name, ()) => .unlink { parent := h.nodeid, name }

def rmdir : Format where
  Fixed := Unit
  tail _ := [.name nameLimit]
  toOperation h _ := fun (name, ()) => .rmdir { parent := h.nodeid, name }

/-! ## New names -/

def mknod : Format where
  Fixed := MknodArgs
  tail _ := [.name nameLimit]
  toOperation h a := fun (name, ()) => .mknod { parent := h.nodeid, name } a.mode a.rdev a.umask

def mkdir : Format where
  Fixed := MkdirArgs
  tail _ := [.name nameLimit]
  toOperation h a := fun (name, ()) => .mkdir { parent := h.nodeid, name } a.mode a.umask

/-- Making a symbolic link: first its name, then its target. -/
def symlink : Format where
  Fixed := Unit
  tail _ := [.name nameLimit, .name targetLimit]
  toOperation h _ := fun (name, target, ()) => .symlink { parent := h.nodeid, name } target

/-- Giving a node a further name, in the header's directory. -/
def link : Format where
  Fixed := LinkArgs
  tail _ := [.name nameLimit]
  toOperation h a := fun (name, ()) => .link a.oldnodeid { parent := h.nodeid, name }

def create : Format where
  Fixed := CreateArgs
  tail _ := [.name nameLimit]
  toOperation h a := fun (name, ()) => .create { parent := h.nodeid, name } a.mode a.umask a.flags

/-! ## Moves -/

/-- Moving a name: first the old name, then the new one. -/
def rename : Format where
  Fixed := RenameArgs
  tail _ := [.name nameLimit, .name nameLimit]
  toOperation h a := fun (old, new, ()) =>
    .rename { parent := h.nodeid, name := old } { parent := a.newdir, name := new } 0

/-- The flags that a move may carry: keep a name that is there, swap with it, or leave a whiteout behind. -/
def renameFlags : UInt32 := 7

/-- Moving a name with flags. Flags that are not known are refused before the names are read. -/
def rename2 : Format where
  Fixed := Rename2Args
  objection a :=
    if hasBit a.flags (~~~renameFlags) then some { place := 8, fault := .renameFlags a.flags } else none
  tail _ := [.name nameLimit, .name nameLimit]
  toOperation h a := fun (old, new, ()) =>
    .rename { parent := h.nodeid, name := old } { parent := a.newdir, name := new } a.flags

end Argument

end FuseAbi
