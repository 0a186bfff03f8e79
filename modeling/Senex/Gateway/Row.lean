import Senex.Gateway.Value

/-! # Rows of the gateway -/

namespace Senex.Gateway

open Text

/-- A prediction row with its audit. -/
structure Source where
  id : Nat
  (ts symbol prediction : Text)
  (confidence ev priceNow : Double)
  price15mLater : Option Double
  outcome : Option Text
  (exchangeUsed createdAt : Text)
  audit : Json

/-- `x.replace(/(\.\d*?[1-9])0+$/, "$1").replace(/\.0+$/, " ")` -/
def trimFraction (x : Text) : Text :=
  let digits := (x.reverse.takeWhile isDigit).reverse
  let front := x.take (x.length - digits.length)
  if front.getLast? = some 46 ∧ digits ≠ [] then
    let kept := (digits.reverse.dropWhile (· = 48)).reverse
    if kept = [] then front.dropLast ++ [32] else front ++ kept
  else x

/-- An instant as the gateway answers it, from one as it is stored. -/
def apiTs (v : Text) : Text :=
  if v.getLast? = some 90 then
    let x := v.dropLast
    (if x.contains 46 then stripBy isJsSpace (trimFraction x) else x) ++ txt "+00:00"
  else v

example : apiTs (txt "2026-01-01T00:00:00.000000Z") = txt "2026-01-01T00:00:00+00:00" ∧
    apiTs (txt "2026-01-01T00:00:00.120300Z") = txt "2026-01-01T00:00:00.1203+00:00" := by
  decide

end Senex.Gateway
