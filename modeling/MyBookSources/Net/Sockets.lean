import MyBookSources.Foundation.Bytes

/-! # Results of socket calls

What `sockets::read`, `sockets::readv` and `sockets::write` hand back to the
code that calls them.
-/

namespace MyBookSources.Net

/-- `EAGAIN` is the same number as `EWOULDBLOCK`. -/
inductive Errno
  | EWOULDBLOCK
  | EINTR
  | EPIPE
  | ECONNRESET
  | other (code : Nat)
  deriving DecidableEq

/-- A read hands back a positive count of bytes, zero at the end of the stream,
or minus one with an error number. -/
inductive ReadResult
  | received (data : Bytes)
  | endOfStream
  | failed (errno : Errno)
  deriving DecidableEq

/-- The value `n` returned by the read. -/
def ReadResult.count : ReadResult → Int
  | .received data => data.length
  | .endOfStream => 0
  | .failed _ => -1

/-- A write hands back the count of bytes the kernel accepted, or minus one with
an error number. -/
inductive WriteResult
  | accepted (count : Nat)
  | failed (errno : Errno)
  deriving DecidableEq

namespace WriteResult

/-- The kernel accepts at most the requested count, which is passed on as an
`int32_t`. -/
def Within (requested : Nat) : WriteResult → Prop
  | .accepted count => (count : Int) ≤ int32 requested
  | .failed _ => True

instance (requested : Nat) (write : WriteResult) : Decidable (write.Within requested) :=
  match write with
  | .accepted _ => inferInstanceAs (Decidable (_ ≤ _))
  | .failed _ => isTrue trivial

def Fatal : WriteResult → Prop
  | .failed .EPIPE => True
  | .failed .ECONNRESET => True
  | _ => False

instance (write : WriteResult) : Decidable write.Fatal := by
  unfold Fatal
  split
  · exact isTrue trivial
  · exact isTrue trivial
  · exact isFalse not_false

end WriteResult

end MyBookSources.Net
