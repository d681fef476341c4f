import Mathlib.Data.Rat.Defs
import RLFinder.Foundation

/-!
# The hex colour parser

`HexConverter.hexStringToUIColor`. Colours are kept by their components, and the quotients of
`CGFloat` are taken exactly.
-/

namespace RLFinder

structure UIColor where
  red : ℚ
  green : ℚ
  blue : ℚ
  alpha : ℚ
  deriving DecidableEq

/-- `UIColor.gray` -/
def UIColor.gray : UIColor := ⟨1 / 2, 1 / 2, 1 / 2, 1⟩

/-- The colour whose components are the bytes of `rgbValue`. -/
def UIColor.ofRgbValue (rgbValue : UInt32) : UIColor where
  red := ((rgbValue &&& 0xFF0000) >>> 16).toNat / 255
  green := ((rgbValue &&& 0x00FF00) >>> 8).toNat / 255
  blue := (rgbValue &&& 0x0000FF).toNat / 255
  alpha := 1

/-- `HexConverter.hexStringToUIColor(hex:)`. The result of the scan is not looked at: when there is
no digit, `rgbValue` keeps its initial 0. -/
def hexStringToUIColor (u : UnicodeData) (hex : String) : UIColor :=
  let cString := u.uppercased hex.toList
  if u.characterCount cString ≠ 6 then .gray
  else .ofRgbValue ((Scanner.scanHexInt32 cString).getD 0)

end RLFinder
