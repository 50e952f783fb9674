import Mathlib.Data.Nat.Bitwise
/-!
# Tokens and events (src/mod.rs, src/coroutine.rs)

A mio token packs a coroutine id and the position of an event source in the coroutine's `blocked_on` list into one
`usize`.
-/
namespace Mioco

/-- Read/Write/Both/None. -/
structure RW where
  read : Bool
  write : Bool
deriving DecidableEq, Repr

namespace RW
def ofRead : RW := ⟨true, false⟩
def ofWrite : RW := ⟨false, true⟩
def both : RW := ⟨true, true⟩
def none : RW := ⟨false, false⟩
end RW

/-- The event delivered to a coroutine. -/
structure Event where
  id : Nat
  rw : RW
deriving DecidableEq, Repr

/-- What mio reports for a token (`mio_orig::EventSet`). -/
structure EventSet where
  readable : Bool
  writable : Bool
  hup : Bool
  error : Bool
deriving DecidableEq, Repr

namespace EventSet
def ofReadable : EventSet := ⟨true, false, false, false⟩
def isNone (e : EventSet) : Bool := !e.readable && !e.writable && !e.hup && !e.error

/-- The `match` of `CoroutineSlabHandle::event`: a hup is read as readable; `none` is its `panic!()` arm. -/
def rw (e : EventSet) : Option RW :=
  match e.readable || e.hup, e.writable with
  | true, true => some RW.both
  | true, false => some RW.ofRead
  | false, true => some RW.ofWrite
  | false, false => none
end EventSet

def eventSourceTokenShift : Nat := 10
def eventSourceTokenMask : Nat := (1 <<< eventSourceTokenShift) - 1

/-- Coroutine id and event source id of a token. -/
def tokenToIds (token : Nat) : Nat × Nat :=
  (token >>> eventSourceTokenShift, token &&& eventSourceTokenMask)

/-- The token of an event source of a coroutine (a debug build asserts `ioId ≤ eventSourceTokenMask`). -/
def tokenFromIds (coId ioId : Nat) : Nat :=
  (coId <<< eventSourceTokenShift) ||| ioId

end Mioco
