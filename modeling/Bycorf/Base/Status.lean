/-
  `absl::Status` as the modelled code uses it: a code and a message.  Only the codes the code
  paths of this development return are listed.
-/

namespace Bycorf

/-- The codes of `Status`, those of `absl::StatusCode`. -/
inductive StatusCode where
  | ok
  | cancelled
  | unknown
  | invalidArgument
  | deadlineExceeded
  | resourceExhausted
  | outOfRange
  | unavailable
  | failedPrecondition
  | unimplemented
  | internal
deriving DecidableEq, Repr

/-- What a fallible function of the source returns: a code and its message. -/
structure Status where
  code : StatusCode
  message : String
deriving DecidableEq, Repr

namespace Status

/-- `absl::OkStatus()`. -/
def okStatus : Status := ⟨.ok, ""⟩

/-- `Status::ok()`. -/
def isOk (s : Status) : Bool := s.code = .ok

@[simp] theorem isOk_okStatus : okStatus.isOk = true := rfl

end Status

end Bycorf
