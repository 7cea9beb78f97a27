import Mathlib.Data.Fintype.Basic

namespace Fusecraft

/-!
# Operation kinds and errors

The vocabularies that every other component shares: the kinds of filesystem
operation the simulator intercepts, the byte strings of the operating system,
and the errors that an operation can return.  Errno numbers are those of
Linux.
-/

/-- A filesystem operation kind that the simulator can intercept. -/
inductive FsOp where
  | lookup
  | getAttr
  | open
  | read
  | write
  | flush
  | release
  | fsync
  | readdir
  | statfs
  | access
  deriving DecidableEq, Repr

namespace FsOp

/-- All defined operation kinds, in declaration order. -/
def all : List FsOp :=
  [lookup, getAttr, .open, read, write, flush, release, fsync, readdir, statfs, access]

theorem mem_all (op : FsOp) : op ∈ all := by
  cases op <;> decide

theorem all_nodup : all.Nodup := by
  decide

instance : Fintype FsOp where
  elems := ⟨all, all_nodup⟩
  complete := mem_all

/-- The string form of an operation, also its name in a configuration. -/
def asStr : FsOp -> String
  | lookup => "lookup"
  | getAttr => "getattr"
  | .open => "open"
  | read => "read"
  | write => "write"
  | flush => "flush"
  | release => "release"
  | fsync => "fsync"
  | readdir => "readdir"
  | statfs => "statfs"
  | access => "access"

/-- The numeric value of `op as u64`: the position in the declaration. -/
def toU64 : FsOp -> UInt64
  | lookup => 0
  | getAttr => 1
  | .open => 2
  | read => 3
  | write => 4
  | flush => 5
  | release => 6
  | fsync => 7
  | readdir => 8
  | statfs => 9
  | access => 10

/-- Read and write are the only operations that move file data. -/
def isData : FsOp -> Bool
  | read => true
  | write => true
  | _ => false

end FsOp

/-- The bytes of a text as an `OsStr`. -/
def osStr (name : String) : List UInt8 := name.toUTF8.data.toList

/-- `OsStr::to_str` succeeds on these names. -/
def isUtf8 (name : List UInt8) : Bool := name.toByteArray.validateUTF8

namespace Libc

def eio : Int := 5
def enoent : Int := 2
def eintr : Int := 4
def eagain : Int := 11
def enotdir : Int := 20
def einval : Int := 22
def enospc : Int := 28
def estale : Int := 116

end Libc

/-- The error type of the core crate.  An I/O error is kept as the raw OS
code it may carry. -/
inductive FsError where
  | errno (code : Int)
  | config (message : String)
  | io (rawOsError : Option Int)
  deriving DecidableEq, Repr

/-- Map an error to a raw errno integer. -/
def FsError.asErrno : FsError -> Int
  | .errno code => code
  | .io rawOsError => rawOsError.getD Libc.eio
  | .config _ => Libc.einval

end Fusecraft
