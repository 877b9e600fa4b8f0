import FuseAbi.Operation

/-!
# Summaries

What the dump shows of an operation behind its name and node: its names in full, and those of its numbers
that a reader of a trace looks for. Some operations have nothing to show.
-/

namespace FuseAbi

namespace Summary

/-- A number after what it is. -/
def item (label : String) (n : Nat) : Bytes :=
  ascii label ++ ascii "=" ++ decimal n

/-- A number after what it is, behind a blank. -/
def more (label : String) (n : Nat) : Bytes :=
  ascii " " ++ item label n

/-- A word behind a blank, where it applies. -/
def word (applies : Bool) (text : String) : Bytes :=
  if applies then ascii " " ++ ascii text else []

/-- A directory and a name in it. -/
def place (entry : Entry) : Bytes :=
  decimal entry.parent.toNat ++ ascii "/" ++ quoted entry.name

/-- A handle with an offset in the file. -/
def point (p : FilePoint) : Bytes :=
  item "fh" p.handle.fh.toNat ++ more "offset" p.offset.toNat

/-- What is shown of a change of attributes. -/
def change (c : AttrChange) : Bytes :=
  ascii "valid=0x" ++ hexadecimal c.valid.toNat ++
    (c.mode.map fun mode => more "mode" mode.toNat).getD [] ++
    (c.size.map fun size => more "size" size.toNat).getD [] ++
    word (!c.atime.isKeep) "atime" ++ word (!c.mtime.isKeep) "mtime"

/-- What is shown of a lock. -/
def lock (handle : Handle) (l : FileLock) : Bytes :=
  item "fh" handle.fh.toNat ++ more "type" l.type.toNat ++ more "range" l.start.toNat ++ ascii ".." ++
    decimal l.last.toNat

end Summary

open Summary in
/-- What is shown of an operation. -/
def Operation.summary : Operation → Bytes
  | lookup entry | unlink entry | rmdir entry => quoted entry.name
  | forget _ nlookup => item "nlookup" nlookup.toNat
  | batchForget entries => item "count" entries.length
  | getattr _ fh => (fh.map fun fh => item "fh" fh.toNat).getD []
  | setattr _ c => Summary.change c
  | readlink _ | statfs _ => []
  | symlink entry target => quoted entry.name ++ ascii " -> " ++ quoted target
  | mknod entry mode rdev _ => quoted entry.name ++ more "mode" mode.toNat ++ more "rdev" rdev.toNat
  | mkdir entry mode _ => quoted entry.name ++ more "mode" mode.toNat
  | rename source target flags =>
    quoted source.name ++ ascii " -> " ++ place target ++
      (if flags = 0 then [] else more "flags" flags.toNat)
  | link _ target => ascii "-> " ++ place target
  | openFile _ flags | openDir _ flags => item "flags" flags.toNat
  | read source size _ _ => point source ++ more "size" size.toNat
  | write target _ _ _ data => point target ++ more "len" data.length
  | release handle _ _ flushed _ => item "fh" handle.fh.toNat ++ word flushed "flush"
  | fsync handle datasync | fsyncdir handle datasync =>
    item "fh" handle.fh.toNat ++ word datasync "datasync"
  | setxattr _ name value _ => quoted name ++ more "len" value.length
  | getxattr _ name size => quoted name ++ more "size" size.toNat
  | listxattr _ size => item "size" size.toNat
  | removexattr _ name => quoted name
  | flush handle _ => item "fh" handle.fh.toNat
  | readdir source size _ => point source ++ more "size" size.toNat
  | releasedir handle _ => item "fh" handle.fh.toNat
  | getlk handle _ l | setlk handle _ l _ => Summary.lock handle l
  | flock handle _ command => item "fh" handle.fh.toNat ++ more "op" command.toNat
  | access _ mask => item "mask" mask.toNat
  | create entry mode _ flags => quoted entry.name ++ more "mode" mode.toNat ++ more "flags" flags.toNat
  | interrupt unique => item "target" unique.toNat
  | bmap _ block _ => item "block" block.toNat
  | poll handle events _ => item "fh" handle.fh.toNat ++ more "events" events.toNat
  | notifyReply _ _ offset data => item "offset" offset.toNat ++ more "len" data.length
  | fallocate target length _ => point target ++ more "length" length.toNat
  | copyFileRange _ target length _ =>
    ascii "-> " ++ decimal target.handle.ino.toNat ++ more "length" length.toNat

end FuseAbi
