import Mathlib.Algebra.Order.Ring.Int
import Mathlib.Data.UInt

/-!
This module contains NTP times: their seconds and fractions, and the 32 bits in the middle of these that
reports carry.
-/

theorem toNat_ofInt (x : Int) : (UInt32.ofInt x).toNat = (x % 2 ^ 32).toNat := by
  have hlt : (x % 2 ^ 32).toNat < UInt32.size := by
    change _ < 2 ^ 32
    omega
  exact UInt32.toNat_ofNat_of_lt' hlt

structure NtpTimestamp where
  ntpSec : UInt32
  ntpFrac : UInt32
  deriving DecidableEq, Repr

namespace NtpTimestamp

/--
`millisec_to_ntp`. The fraction is exact: the product of `double` is either an integer, or farther from
the next one than it is rounded by.
-/
def ofMillisec (ms : Nat) : NtpTimestamp where
  ntpSec := UInt32.ofNat (ms / 1000)
  ntpFrac := UInt32.ofNat (ms % 1000 * 2 ^ 32 / 1000)

/--
The lower half of the seconds and the upper half of the fraction.
-/
def compact (ntp : NtpTimestamp) : UInt32 :=
  ((ntp.ntpSec &&& 0xffff) <<< 16) ||| ((ntp.ntpFrac &&& 0xffff0000) >>> 16)

theorem toNat_ntpSec (ms : Nat) : (ofMillisec ms).ntpSec.toNat = ms / 1000 % 2 ^ 32 := UInt32.toNat_ofNat'

theorem toNat_ntpFrac (ms : Nat) : (ofMillisec ms).ntpFrac.toNat = ms % 1000 * 2 ^ 32 / 1000 := by
  have hfrac : ms % 1000 * 2 ^ 32 / 1000 < 2 ^ 32 := by omega
  exact UInt32.toNat_ofNat_of_lt' hfrac

end NtpTimestamp
