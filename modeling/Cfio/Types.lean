import Mathlib.Data.List.Basic

/-! # Common enums and structures

    The types every module shares: directions, access patterns and workload
    modes, the request a worker hands to an engine and the completion it gets
    back.  Machine integers keep their widths (`size_t` and `uint64_t` are
    `UInt64`, `off_t` and `ssize_t` are `Int64`, `int` is `Int32`), an address is
    a `UInt64` with `0` for the null pointer, and a `steady_clock` time point is
    its count of nanoseconds. -/

namespace CfioTypes

/-- Whether a single IO operation is a read or a write. -/
inductive IODirection where
  | kRead
  | kWrite
  deriving DecidableEq, Repr

/-- The access pattern of a job. -/
inductive AccessPattern where
  | kSequential
  | kRandom
  deriving DecidableEq, Repr

/-- Workload mode requested in the job configuration. -/
inductive RWMode where
  | kRead
  | kWrite
  | kRandRead
  | kRandWrite
  | kReadWrite
  | kRandRW
  deriving DecidableEq, Repr

/-- A time point of the steady clock, in nanoseconds. -/
abbrev TimePoint := Int

/-- A single IO operation submitted from a worker thread to an engine. -/
structure IORequest where
  offset : Int64 := 0
  buffer : UInt64 := 0
  length : UInt64 := 0
  direction : IODirection := .kRead
  submitTime : TimePoint := 0
  id : UInt64 := 0
  deriving DecidableEq, Repr

/-- Result of a completed IO operation. -/
structure IOCompletion where
  id : UInt64 := 0
  bytesTransferred : Int64 := 0
  direction : IODirection := .kRead
  success : Bool := false
  errorCode : Int32 := 0
  submitTime : TimePoint := 0
  deriving DecidableEq, Repr

/-! ## Exceptions -/

/-- The exceptions the code throws or lets through, with the text it gives them.
    `unknown` is anything not derived from `std::exception`. -/
inductive Exn where
  | logicError (what : String)
  | invalidArgument (what : String)
  | runtimeError (what : String)
  | systemError (code : Int32) (what : String)
  | badAlloc
  | unknown
  deriving DecidableEq, Repr

/-- Is it a `std::logic_error`?  `std::invalid_argument` is derived from it. -/
def Exn.isLogicError : Exn → Bool
  | .logicError _ => true
  | .invalidArgument _ => true
  | _ => false

/-- The text a handler of `std::exception` reads; a handler of anything else has
    none.  The library appends its own text for the code of a `system_error`,
    which nothing here reads. -/
def Exn.what : Exn → Option String
  | .logicError what => some what
  | .invalidArgument what => some what
  | .runtimeError what => some what
  | .systemError _ what => some what
  | .badAlloc => some "std::bad_alloc"
  | .unknown => none

/-! ## Errno values the code names -/

def EINTR : Int32 := 4
def EIO : Int32 := 5
def EAGAIN : Int32 := 11
def EINVAL : Int32 := 22
def ENOSYS : Int32 := 38
def EOPNOTSUPP : Int32 := 95

end CfioTypes
