import SwarmAutoscaler.Arith.Ratio
import SwarmAutoscaler.Monitoring.Resources

/-! The CPU utilisation as the Monitor computes it, in `float64`, and how far it is from the
exact one. -/
namespace Resources

open Binary64 (Within ofRat)

/-- `time.Duration.Seconds`: the whole seconds and the nanoseconds are converted apart. -/
def seconds64 (duration : Int64) : Rat :=
  let sec := duration / 1000000000
  let nsec := duration % 1000000000
  ofRat (float64 sec + ofRat (float64 nsec / 10 ^ 9))

/-- The utilisation in percent, rounded after every operation. -/
def cpuUtilization64 (usageDeltaUsec collectionPeriod : Int64) : Rat :=
  ofRat (ofRat (ofRat (float64 usageDeltaUsec / seconds64 collectionPeriod) / 10 ^ 6) * 100)

/-- At 7 % in a second, a little more comes out. -/
example : 7 < cpuUtilization64 70000 1000000000 := by decide +kernel

variable {usageDeltaUsec collectionPeriod : Int64}

theorem float64_of_lt {n : Int64} (h : n.toInt.natAbs < 2 ^ 53) : float64 n = n.toInt := by
  rw [float64, Binary64.ofInt_of_lt h]

theorem within_seconds64 (hPeriod : 0 < collectionPeriod.toInt) :
    Within (2 * Binary64.unit + Binary64.unit ^ 2) (seconds64 collectionPeriod) (seconds collectionPeriod) := by
  have hBound := Int64.toInt_lt collectionPeriod
  have hSec : (collectionPeriod / 1000000000).toInt = collectionPeriod.toInt / 10 ^ 9 := by
    rw [Int64.toInt_div_of_ne_right _ _ (by decide)]
    exact Int.tdiv_eq_ediv_of_nonneg (Int.le_of_lt hPeriod)
  have hNsec : (collectionPeriod % 1000000000).toInt = collectionPeriod.toInt % 10 ^ 9 := by
    rw [Int64.toInt_mod]
    exact Int.tmod_eq_emod_of_nonneg (Int.le_of_lt hPeriod)
  have hSec64 : float64 (collectionPeriod / 1000000000) = (collectionPeriod / 1000000000).toInt :=
    float64_of_lt (by rw [hSec]; omega)
  have hNsec64 : float64 (collectionPeriod % 1000000000) = (collectionPeriod % 1000000000).toInt :=
    float64_of_lt (by rw [hNsec]; omega)
  have hUnit : 0 ≤ Binary64.unit := by norm_num [Binary64.unit]
  have hWhole : 0 ≤ (collectionPeriod / 1000000000).toInt := by omega
  have hPart : 0 ≤ (collectionPeriod % 1000000000).toInt := by omega
  have hSplit : seconds collectionPeriod =
      (collectionPeriod / 1000000000).toInt + (collectionPeriod % 1000000000).toInt / 10 ^ 9 := by
    have hTotal : collectionPeriod.toInt =
        10 ^ 9 * (collectionPeriod / 1000000000).toInt + (collectionPeriod % 1000000000).toInt := by omega
    rw [seconds, hTotal]
    push_cast
    field_simp
    ring
  have hSum : Within Binary64.unit
      (float64 (collectionPeriod / 1000000000) + ofRat (float64 (collectionPeriod % 1000000000) / 10 ^ 9))
      (seconds collectionPeriod) := by
    rw [hSplit, hSec64, hNsec64]
    exact Within.add (Int.cast_nonneg hWhole) (div_nonneg (Int.cast_nonneg hPart) (by norm_num))
      (Within.refl hUnit _) (Binary64.within_ofRat _)
  refine (Within.trans hUnit (Binary64.within_ofRat _) hSum).mono (le_of_eq ?_)
  ring

/-- All roundings together change the utilisation by at most one part in 2^50. -/
theorem within_cpuUtilization64 (hPeriod : 0 < collectionPeriod.toInt) :
    Within (1 / 2 ^ 50) (cpuUtilization64 usageDeltaUsec collectionPeriod)
      (cpuUtilization usageDeltaUsec collectionPeriod) := by
  have hUnit : 0 ≤ Binary64.unit := by norm_num [Binary64.unit]
  have hSeconds : 0 < seconds collectionPeriod := div_pos (Int.cast_pos.mpr hPeriod) (by norm_num)
  have hDelta : Within Binary64.unit (float64 usageDeltaUsec) usageDeltaUsec.toInt :=
    Binary64.within_ofInt usageDeltaUsec.toInt
  have hRate := Within.trans hUnit (Binary64.within_ofRat _)
    (hDelta.div (by norm_num [Binary64.unit]) hSeconds (within_seconds64 hPeriod))
  have hCPUs := Within.trans hUnit (Binary64.within_ofRat _) (hRate.div_const (10 ^ 6))
  have hPercent := Within.trans hUnit (Binary64.within_ofRat _) (hCPUs.mul 100)
  exact hPercent.mono (by norm_num [Binary64.unit])

end Resources
