import Mathlib.Data.Int.Notation

/-! The error numbers the drivers return, negated as in the source. -/

namespace GfxDrm.Errno

abbrev ePerm : ℤ := -1
abbrev eNoent : ℤ := -2
abbrev eIntr : ℤ := -4
abbrev eIo : ℤ := -5
abbrev eNxio : ℤ := -6
abbrev e2Big : ℤ := -7
abbrev eAgain : ℤ := -11
abbrev eNomem : ℤ := -12
abbrev eAcces : ℤ := -13
abbrev eFault : ℤ := -14
abbrev eBusy : ℤ := -16
abbrev eNodev : ℤ := -19
abbrev eInval : ℤ := -22
abbrev eNospc : ℤ := -28
abbrev eRange : ℤ := -34
abbrev eDeadlk : ℤ := -45
abbrev eNotsup : ℤ := -48
abbrev eProto : ℤ := -71
abbrev eTimedout : ℤ := -145

end GfxDrm.Errno
