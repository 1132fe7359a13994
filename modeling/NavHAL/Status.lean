/-! The return codes shared by every driver (`hal_status.h`). -/

namespace NavHAL

inductive HalStatus
  | ok
  | err
  | errInvalidArg
  | errTimeout
  | errBusy
  | errNotInitialized
  | errNotSupported
  | errIo
  | errNoMem
  deriving DecidableEq, Repr

end NavHAL
